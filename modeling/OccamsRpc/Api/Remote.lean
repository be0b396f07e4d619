import OccamsRpc.Api.Link
import OccamsRpc.Lib.Runs
import OccamsRpc.Tcp.RespFidelity
/-!
# What a connection is for

A caller should not notice the connection: its call waits, then runs once on the
service's state, in the order the calls were made, and returns what the method
returned. `Remote` is that and nothing else; it knows no bytes and no seqs. Then
what has to hold for a connection to be one: a codec that loses nothing, messages
that fit the header's fields, and a transport that transfers them.
-/
open Lib

namespace OccamsRpc

variable {C σ : Type}

/-! ## Calls without a connection -/

/-- A call under way: its number, and how many seconds it has waited. -/
structure Ticket where
  id : Nat
  age : Nat

/-- The abstract model: methods that are called, run in order, and return what they computed
or a timeout. -/
structure Remote (serve : Serve C σ) where
  timeout : Nat
  made : Nat
  /-- Made and not run yet, the oldest first. -/
  queue : List (Ticket × Call serve)
  /-- Run and not returned yet. -/
  answers : List (Ticket × Outcome C σ)
  returned : List (Nat × Outcome C σ)
  state : σ

/-- The method itself, on the service's state. -/
def Call.run {serve : Serve C σ} (c : Call serve) (st : σ) : Outcome C σ × σ :=
  (⟨c.method, (c.method.run c.arg st).1⟩, (c.method.run c.arg st).2)

namespace Remote

variable {serve : Serve C σ}

def new (timeout : Nat) (st : σ) : Remote serve := ⟨timeout, 0, [], [], [], st⟩

/-- The calls under way. -/
def tickets (r : Remote serve) : List Ticket := r.queue.map Prod.fst ++ r.answers.map Prod.fst

/-- A second has passed for the call. -/
def older (k : Ticket) : Ticket := { k with age := k.age + 1 }

/-- A second passes only while every call under way has waited less than the
timeout. -/
def step (r : Remote serve) : Link.Act serve → Option (Remote serve)
  | .call c _ => some { r with made := r.made + 1, queue := r.queue ++ [(⟨r.made, 0⟩, c)] }
  | .serve _ _ =>
    match r.queue with
    | [] => none
    | (k, c) :: queue =>
      let (o, st) := c.run r.state
      some { r with queue := queue, answers := r.answers ++ [(k, o)], state := st }
  | .receive _ =>
    match r.answers with
    | [] => none
    | (k, o) :: answers => some { r with answers := answers, returned := r.returned ++ [(k.id, o)] }
  | .tick =>
    if r.tickets.all fun k => k.age < r.timeout then
      some { r with queue := r.queue.map (Prod.map older id), answers := r.answers.map (Prod.map older id) }
    else none

end Remote

/-! ## What a run returns -/

section
variable {serve : Serve C σ}

/-- The methods called directly, one after the other. -/
def runAll : List (Call serve) → σ → List (Outcome C σ) × σ
  | [], st => ([], st)
  | c :: cs, st => ((c.run st).1 :: (runAll cs (c.run st).2).1, (runAll cs (c.run st).2).2)

theorem runAll_concat (cs : List (Call serve)) (c : Call serve) (st : σ) :
    runAll (cs ++ [c]) st = ((runAll cs st).1 ++ [(c.run (runAll cs st).2).1],
      (c.run (runAll cs st).2).2) := by
  induction cs generalizing st with
  | nil => rfl
  | cons d cs ih => simp only [List.cons_append, runAll, ih]

theorem length_runAll (cs : List (Call serve)) (st : σ) : (runAll cs st).1.length = cs.length := by
  induction cs generalizing st with
  | nil => rfl
  | cons c cs ih => simp only [runAll, List.length_cons, ih]

namespace Link.Act

/-- The calls made by these steps. -/
def calls (as : List (Act serve)) : List (Call serve) :=
  as.filterMap fun
    | .call c _ => some c
    | _ => none

def serves (as : List (Act serve)) : Nat :=
  as.countP fun
    | .serve _ _ => true
    | _ => false

def receives (as : List (Act serve)) : Nat :=
  as.countP fun
    | .receive _ => true
    | _ => false

end Link.Act

/-- A ticket's call or outcome with its number. -/
def numbered {α : Type*} (p : Ticket × α) : Nat × α := (p.1.id, p.2)

/-- After the steps `as`: the calls made wait in their order, those served have
run in it, and their outcomes are returned in it. -/
structure Remote.Follows (st : σ) (as : List (Link.Act serve)) (r : Remote serve) : Prop where
  made : r.made = (Link.Act.calls as).length
  served_le : Link.Act.serves as ≤ (Link.Act.calls as).length
  queue : r.queue.map numbered = ((Link.Act.calls as).mapIdx Prod.mk).drop (Link.Act.serves as)
  answers : r.returned ++ r.answers.map numbered =
    (runAll ((Link.Act.calls as).take (Link.Act.serves as)) st).1.mapIdx Prod.mk
  state : r.state = (runAll ((Link.Act.calls as).take (Link.Act.serves as)) st).2
  returned : r.returned.length = Link.Act.receives as

namespace Remote.Follows

variable {st : σ} {as : List (Link.Act serve)} {r r' : Remote serve}

theorem called (h : r.Follows st as) (c : Call serve) (writes : List WriteEv)
    (hr : r.step (.call c writes) = some r') : r'.Follows st (as ++ [.call c writes]) := by
  have hcalls : Link.Act.calls (as ++ [.call c writes]) = Link.Act.calls as ++ [c] :=
    List.filterMap_append
  have hserves : Link.Act.serves (as ++ [.call c writes]) = Link.Act.serves as := by
    simp [Link.Act.serves]
  have hreceives : Link.Act.receives (as ++ [.call c writes]) = Link.Act.receives as := by
    simp [Link.Act.receives]
  have htake : (Link.Act.calls as ++ [c]).take (Link.Act.serves as) =
      (Link.Act.calls as).take (Link.Act.serves as) :=
    List.take_append_of_le_length h.served_le
  cases hr
  constructor
  · simp [hcalls, h.made]
  · rw [hcalls, hserves, List.length_append]
    exact Nat.le_add_right_of_le h.served_le
  · rw [hcalls, hserves, List.mapIdx_concat,
    List.drop_append_of_le_length (by simpa using h.served_le), ← h.queue, ← h.made]
    simp [numbered]
  · rw [hcalls, hserves, htake]
    exact h.answers
  · rw [hcalls, hserves, htake]
    exact h.state
  · rw [hreceives]
    exact h.returned

theorem served (h : r.Follows st as) {reads : List ReadEv} {writes : List WriteEv}
    (hr : r.step (.serve reads writes) = some r') :
    r'.Follows st (as ++ [.serve reads writes]) := by
  have hcalls : Link.Act.calls (as ++ [.serve reads writes]) = Link.Act.calls as := by
    simp [Link.Act.calls]
  have hserves : Link.Act.serves (as ++ [.serve reads writes]) = Link.Act.serves as + 1 := by
    simp [Link.Act.serves]
  have hreceives : Link.Act.receives (as ++ [.serve reads writes]) = Link.Act.receives as := by
    simp [Link.Act.receives]
  rcases hq : r.queue with _ | ⟨⟨k, c⟩, queue⟩
  · simp [Remote.step, hq] at hr
  simp only [Remote.step, hq, Option.some.injEq] at hr
  subst hr
  have hqueue := h.queue
  rw [hq, List.map_cons] at hqueue
  -- the call at the head of the queue is the first that was not served
  obtain ⟨hc, hid⟩ :
      (Link.Act.calls as)[Link.Act.serves as]? = some c ∧ k.id = Link.Act.serves as := by
    have hhead := congrArg List.head? hqueue
    rw [List.head?_cons, List.head?_drop, List.getElem?_mapIdx] at hhead
    obtain ⟨c', hc', he⟩ := Option.map_eq_some_iff.1 hhead.symm
    simp only [numbered, Prod.mk.injEq] at he
    exact ⟨he.2 ▸ hc', he.1.symm⟩
  have hlt := (List.getElem?_eq_some_iff.1 hc).1
  have htake : (Link.Act.calls as).take (Link.Act.serves as + 1) =
      (Link.Act.calls as).take (Link.Act.serves as) ++ [c] := by
    rw [List.take_add_one, hc]
    rfl
  have hlen : (runAll ((Link.Act.calls as).take (Link.Act.serves as)) st).1.length = k.id := by
    rw [length_runAll, List.length_take, hid]
    exact Nat.min_eq_left h.served_le
  constructor
  · rw [hcalls]
    exact h.made
  · rw [hcalls, hserves]
    exact hlt
  · rw [hcalls, hserves, ← List.tail_drop, ← hqueue]
    rfl
  · rw [hcalls, hserves, htake, runAll_concat, List.mapIdx_concat, ← h.answers, ← h.state, hlen]
    simp [numbered]
  · rw [hcalls, hserves, htake, runAll_concat, ← h.state]
  · rw [hreceives]
    exact h.returned

theorem received (h : r.Follows st as) {reads : List ReadEv}
    (hr : r.step (.receive reads) = some r') :
    r'.Follows st (as ++ [.receive reads]) := by
  have hcalls : Link.Act.calls (as ++ [.receive reads]) = Link.Act.calls as := by
    simp [Link.Act.calls]
  have hserves : Link.Act.serves (as ++ [.receive reads]) = Link.Act.serves as := by
    simp [Link.Act.serves]
  have hreceives : Link.Act.receives (as ++ [.receive reads]) = Link.Act.receives as + 1 := by
    simp [Link.Act.receives]
  rcases ha : r.answers with _ | ⟨⟨k, o⟩, answers⟩
  · simp [Remote.step, ha] at hr
  simp only [Remote.step, ha, Option.some.injEq] at hr
  subst hr
  have hanswers := h.answers
  rw [ha, List.map_cons] at hanswers
  constructor
  · rw [hcalls]
    exact h.made
  · rw [hcalls, hserves]
    exact h.served_le
  · rw [hcalls, hserves]
    exact h.queue
  · rw [hcalls, hserves, ← hanswers, List.append_assoc]
    rfl
  · rw [hcalls, hserves]
    exact h.state
  · rw [hreceives, List.length_append, h.returned]
    rfl

theorem ticked (h : r.Follows st as) (hr : r.step .tick = some r') :
    r'.Follows st (as ++ [.tick]) := by
  have hcalls : Link.Act.calls (as ++ [.tick]) = Link.Act.calls as := by simp [Link.Act.calls]
  have hserves : Link.Act.serves (as ++ [.tick]) = Link.Act.serves as := by simp [Link.Act.serves]
  have hreceives : Link.Act.receives (as ++ [.tick]) = Link.Act.receives as := by
    simp [Link.Act.receives]
  simp only [Remote.step, Option.ite_none_right_eq_some, Option.some.injEq] at hr
  obtain ⟨-, rfl⟩ := hr
  constructor
  · rw [hcalls]
    exact h.made
  · rw [hcalls, hserves]
    exact h.served_le
  · rw [hcalls, hserves, List.map_map]
    exact h.queue
  · rw [hcalls, hserves, List.map_map]
    exact h.answers
  · rw [hcalls, hserves]
    exact h.state
  · rw [hreceives]
    exact h.returned

end Remote.Follows

/-- Every run is as `Follows` says. -/
theorem Remote.follows {timeout : Nat} {st : σ} {tr : List (Remote serve × Link.Act serve)}
    {r : Remote serve} (h : Run Remote.step (Remote.new timeout st) tr r) :
    r.Follows st (tr.map Prod.snd) := by
  induction h with
  | nil => exact ⟨rfl, Nat.le_refl _, rfl, rfl, rfl, rfl⟩
  | @snoc tr r a r' _ hr ih =>
    rw [List.map_append]
    cases a with
    | call c writes => exact ih.called c writes hr
    | serve reads writes => exact ih.served hr
    | receive reads => exact ih.received hr
    | tick => exact ih.ticked hr

end

/-! ## The codec -/

/-- Every value encodes, to something, and is decoded back from it. -/
def Serde.Lossless (codec : C) (T : Type) [Serde C T] : Prop :=
  ∀ x : T, ∃ bs, Serde.encode codec x = some bs ∧ bs ≠ [] ∧ Serde.decode codec bs = some x

/-- The error is decoded back from its encoding, and its text, if it has one, is
not reserved. -/
def RpcErrCodec.Lossless (codec : C) {E : Type} [RpcErrCodec C E] (e : E) : Prop :=
  match RpcErrCodec.encode codec e with
  | .Num n => RpcErrCodec.decode codec (.inl n) = some e
  | .Buf b => RpcErrCodec.decode codec (.inr b) = some e ∧ reserved b = none
  | .Static s =>
    RpcErrCodec.decode codec (.inr (strBytes s)) = some e ∧ reserved (strBytes s) = none
  | .Rpc _ => False

/-- The codec gives back what was encoded, for the argument and for the response. -/
structure Method.Lossless (codec : C) (m : Method C σ) : Prop where
  arg : Serde.Lossless codec m.Arg
  resp : Serde.Lossless codec m.Resp

/-- The call's types are among those the codec loses nothing of. -/
def Link.Act.Lossless {serve : Serve C σ} (codec : C) : Link.Act serve → Prop
  | .call c _ => c.method.Lossless codec
  | _ => True

/-! ## What is on the wire -/

/-- The `seq` of the call with this number: a connection counts from 1. -/
def seqOf (id : Nat) : UInt64 := .ofNat (id + 1)

namespace Call

variable {serve : Serve C σ}

/-- The task that `make_req` makes. -/
def request (codec : C) (c : Call serve) (id : Nat) : APIClientReq where
  seq := 0
  req_msg := some ((Serde.encode codec c.arg).getD [])
  action := c.action
  resp := none
  res := none
  noti := id

/-- The task once the connection has given it its `seq`. -/
def task (codec : C) (c : Call serve) (id : Nat) : APIClientReq :=
  ClientTaskCommon.set_seq (c.request codec id) (seqOf id)

/-- A call as bytes. -/
def wire (codec : C) (client_id : UInt64) (id : Nat) (c : Call serve) : Bytes :=
  Outgoing.wire codec client_id (seqOf id) (.task (c.request codec id) false)

/-- The action's text and the message fit their length fields. -/
def Fits (codec : C) (c : Call serve) : Prop :=
  (strBytes c.action).length ≤ i32_MAX ∧ ((Serde.encode codec c.arg).getD []).length ≤ u32_MAX

end Call

namespace Outcome

/-- The response a handler sends for this outcome. -/
def resp (codec : C) (o : Outcome C σ) (seq : UInt64) : APIServerResp :=
  let req : APIServerReq := ⟨seq, "", "", []⟩
  match o.res with
  | .ok v => req.set_result codec v
  | .error e => req.set_error codec e

/-- An outcome as bytes. -/
def frame (codec : C) (id : Nat) (o : Outcome C σ) : Bytes :=
  RespHead.frame codec (.with_capacity (List.replicate RPC_RESP_HEADER_LEN 0) (by simp))
    (o.resp codec (seqOf id))

/-- The message, or the error's text, fits its length field, and the error is not
taken for another. -/
def Fits (codec : C) (o : Outcome C σ) : Prop :=
  match o.res with
  | .ok v => ((Serde.encode codec v).getD []).length ≤ u32_MAX
  | .error (.User e) =>
    RpcErrCodec.Lossless codec e ∧ ((RpcErrCodec.encode codec e).text.getD []).length ≤ i32_MAX
  | .error (.Rpc _) => True

end Outcome

/-- The socket's answers get all of `bs` to its reader. -/
def Delivering (reads : List ReadEv) (bs : Bytes) : Prop := Sock.Live ⟨reads, bs, [], []⟩

/-- The socket's answers take `n` bytes from its writer. -/
def Accepting (writes : List WriteEv) (n : Nat) : Prop := Sock.Room ⟨[], [], writes, []⟩ n

namespace Remote

variable {serve : Serve C σ}

def queueWire (codec : C) (client_id : UInt64) (r : Remote serve) : Bytes :=
  r.queue.flatMap fun p => p.2.wire codec client_id p.1.id

def answerWire (codec : C) (r : Remote serve) : Bytes :=
  r.answers.flatMap fun p => p.2.frame codec p.1.id

/-- The step is taken without a failure of the transport, and what it sends fits
the header's fields. -/
def Smooth (codec : C) (client_id : UInt64) (r : Remote serve) : Link.Act serve → Prop
  | .call c writes =>
    c.Fits codec ∧ r.made + 1 < 2 ^ 64 ∧ Accepting writes (c.wire codec client_id r.made).length
  | .serve reads writes =>
    Delivering reads (r.queueWire codec client_id) ∧
      ∀ p ∈ r.queue.head?, (p.2.run r.state).1.Fits codec ∧
        Accepting writes ((p.2.run r.state).1.frame codec p.1.id).length
  | .receive reads => Delivering reads (r.answerWire codec)
  | .tick => True

end Remote

end OccamsRpc
