import OccamsRpc.Api.Transparent
import OccamsRpc.Server.Reader
import Mathlib.Data.List.TakeWhile
/-!
# Answers of the API server

`Service.lean` says what a request is answered with. Here the response goes where
the code sends it: each exit of the generated handler, of `serve`, of the muxes
and of the connection's reader has the notifier, and may use it or forget it. A
request gets one response from them all together.
-/
open Lib

namespace OccamsRpc

/-- The state behind the services, and the channel to the writer. -/
structure Serving (σ : Type) where
  st : σ
  noti : RespNoti (Done APIServerResp)

namespace Serving

variable {C σ : Type}

/-- A handler answers its request. -/
def done (resp : APIServerResp) : StateM (Serving σ) Unit :=
  modify fun s => { s with noti := s.noti.done (.ok resp) }

/-- A method is called and awaited. -/
def call (m : Method C σ) (arg : m.Arg) :
    StateM (Serving σ) (Except (RpcError m.Err) m.Resp) := fun s =>
  let (res, st) := m.run arg s.st
  (res, { s with st := st })

/-! ## The code that `#[service]` and the muxes have -/

/-- The generated `__handle_` method. -/
def handle (m : Method C σ) (codec : C) (req : APIServerReq) : StateM (Serving σ) Unit := do
  match (Serde.decode codec req.req : Option m.Arg) with
  | none => done (req.set_rpc_error .Decode)
  | some arg =>
    let res ← call m arg
    match res with
    | .ok resp => done (req.set_result codec resp)
    | .error e => done (req.set_error codec e)

/-- The generated `ServiceStatic::serve`. -/
def serve (s : Service C σ) (codec : C) (req : APIServerReq) : StateM (Serving σ) Unit :=
  match s.methods.find? fun m => m.name = req.method with
  | some m => handle m codec req
  | none => done (req.set_rpc_error .Method)

/-- A service that is not registered is an error of the RPC. -/
def serve_mux_dyn (self : ServiceMuxDyn C σ) (codec : C) (req : APIServerReq) :
    StateM (Serving σ) Unit :=
  match self.map.lookup req.service with
  | some service => serve service codec req
  | none => done (req.set_rpc_error .Service)

/-- The same over the fields of a struct, in their order. -/
def serve_mux_struct (fields : List (Service C σ)) (codec : C) (req : APIServerReq) :
    StateM (Serving σ) Unit :=
  match fields.find? fun s => s.SERVICE_NAME = req.service with
  | some s => serve s codec req
  | none => done (req.set_rpc_error .Service)

/-! ## Dispatch and reader -/

/-- What the dispatcher calls to serve a request. -/
abbrev Serves (C σ : Type) := C → APIServerReq → StateM (Serving σ) Unit

/-- `Inline::dispatch` -/
def dispatch (service : Serves C σ) (codec : C) (req : APIServerReq) :
    StateM (Serving σ) (Except Unit Unit) := do
  service codec req
  return .ok ()

/-- `APIDispatch::dispatch_req` -/
def dispatch_req (service : Serves C σ) (codec : C) (req : RpcSvrReq) :
    StateM (Serving σ) (Except Unit Unit) := do
  if let .Str action := req.action then
    if let some (name, method) := split_once action '.' then
      return ← dispatch service codec ⟨req.seq, name, method, req.msg⟩
  return .error ()

/-- An answer without a handler; `Err` when the writer is gone. -/
def send_quick_resp (seq : UInt64) (err : Option RpcIntErr) :
    StateM (Serving σ) (Except Unit Unit) := fun s =>
  match s.noti.send (.error (seq, err)) with
  | some noti => (.ok (), { s with noti := noti })
  | none => (.error (), s)

/-- One round of `Reader::run`; after an `Err` there is no other. -/
def round (service : Serves C σ) (codec : C) (req : RpcSvrReq) :
    StateM (Serving σ) (Except Unit Unit) := do
  if req.action = .Num 0 ∧ req.msg.length = 0 then
    send_quick_resp req.seq none
  else
    match ← dispatch_req service codec req with
    | .error () => send_quick_resp req.seq (some .Decode)
    | .ok () => return .ok ()

/-! ## One response from all of them -/

/-- One response is sent: what `f` says, which also gives the state after. -/
def Answering (x : StateM (Serving σ) Unit) (f : σ → APIServerResp × σ) : Prop :=
  ∀ s : Serving σ, x s = ((), ⟨(f s.st).2, s.noti.done (.ok (f s.st).1)⟩)

theorem handle_answering (m : Method C σ) (codec : C) (req : APIServerReq) :
    Answering (handle m codec req) (m.handle codec req) := by
  intro s
  cases hd : (Serde.decode codec req.req : Option m.Arg) with
  | none =>
    simp only [handle, Method.handle, hd]
    rfl
  | some arg =>
    have hcall : call m arg s = ((m.run arg s.st).1, { s with st := (m.run arg s.st).2 }) := rfl
    simp only [handle, Method.handle, hd, bind, StateT.bind, hcall]
    rcases m.run arg s.st with ⟨e | resp, st⟩ <;> rfl

theorem serve_answering (service : Service C σ) (codec : C) (req : APIServerReq) :
    Answering (serve service codec req) (service.serve codec req) := by
  intro s
  simp only [serve, Service.serve]
  cases service.methods.find? fun m => m.name = req.method with
  | some m => exact handle_answering m codec req s
  | none => rfl

theorem mux_struct_answering (fields : List (Service C σ)) (codec : C) (req : APIServerReq) :
    Answering (serve_mux_struct fields codec req) (service_mux_struct fields codec req) := by
  intro s
  simp only [serve_mux_struct, service_mux_struct]
  cases fields.find? fun s => s.SERVICE_NAME = req.service with
  | some service => exact serve_answering service codec req s
  | none => rfl

theorem mux_dyn_answering (self : ServiceMuxDyn C σ) (codec : C) (req : APIServerReq) :
    Answering (serve_mux_dyn self codec req) (self.serve codec req) := by
  intro s
  simp only [serve_mux_dyn, ServiceMuxDyn.serve]
  cases self.map.lookup req.service with
  | some service => exact serve_answering service codec req s
  | none => rfl

/-- The reader sends what `Reader.handle` says, and nothing else. -/
theorem round_eq {service : Serves C σ} {f : Serve C σ} {codec : C}
    (h : ∀ req, Answering (service codec req) (f codec req)) (req : RpcSvrReq) (s : Serving σ) :
    (round service codec req s).2 =
      ⟨(Reader.handle (OccamsRpc.dispatch_req f codec) req s.st).2,
        s.noti.done (Reader.handle (OccamsRpc.dispatch_req f codec) req s.st).1⟩ := by
  have hquick (err : Option RpcIntErr) :
      (send_quick_resp req.seq err s).2 = ⟨s.st, s.noti.done (.error (req.seq, err))⟩ := by
    unfold send_quick_resp RespNoti.done
    cases s.noti.send (.error (req.seq, err)) <;> rfl
  unfold round Reader.handle
  split
  case isTrue => exact hquick none
  case isFalse =>
    cases ha : req.action with
    | Num n =>
      simp only [OccamsRpc.dispatch_req, dispatch_req, ha]
      exact hquick (some .Decode)
    | Str action =>
      cases hs : split_once action '.' with
      | none =>
        simp only [OccamsRpc.dispatch_req, dispatch_req, ha, hs]
        exact hquick (some .Decode)
      | some p =>
        simp only [OccamsRpc.dispatch_req, dispatch_req, ha, hs, dispatch, bind, StateT.bind, h _ s]
        rfl

/-! ## Which response it is -/

/-- The seq that a response goes out with. -/
def sentSeq : Done APIServerResp → UInt64
  | .ok resp => resp.seq
  | .error (seq, _) => seq

/-- The response to a request, in state `st` of the services. -/
structure Answers (services : List (Service C σ)) (codec : C) (req : RpcSvrReq) (st : σ)
    (d : Done APIServerResp) :
    Prop where
  seq : sentSeq d = req.seq
  ping : req.action = .Num 0 → req.msg = [] → d = .error (req.seq, none)
  numeric (n : Int32) :
    req.action = .Num n → n ≠ 0 ∨ req.msg ≠ [] → d = .error (req.seq, some .Decode)
  no_dot (action : String) :
    req.action = .Str action → '.' ∉ action.toList → d = .error (req.seq, some .Decode)
  /-- The text before the first dot is no service. -/
  service (name method : String) : req.action = .Str (name ++ "." ++ method) → '.' ∉ name.toList →
    (∀ s ∈ services, s.SERVICE_NAME ≠ name) → d = .ok ⟨req.seq, none, .error (.Rpc .Service)⟩
  /-- The text after it is no method of that service. -/
  method (s : Service C σ) (method : String) :
    s ∈ services → req.action = .Str (s.SERVICE_NAME ++ "." ++ method) →
    (∀ m ∈ s.methods, m.name ≠ method) → d = .ok ⟨req.seq, none, .error (.Rpc .Method)⟩
  decode (s : Service C σ) (m : Method C σ) : s ∈ services → m ∈ s.methods →
    req.action = .Str (s.SERVICE_NAME ++ "." ++ m.name) →
    (Serde.decode codec req.msg : Option m.Arg) = none →
    d = .ok ⟨req.seq, none, .error (.Rpc .Decode)⟩
  encode (s : Service C σ) (m : Method C σ) (arg : m.Arg) (resp : m.Resp) :
    s ∈ services → m ∈ s.methods →
    req.action = .Str (s.SERVICE_NAME ++ "." ++ m.name) → Serde.decode codec req.msg = some arg →
    (m.run arg st).1 = .ok resp → Serde.encode codec resp = none →
    d = .ok ⟨req.seq, none, .error (.Rpc .Encode)⟩
  value (s : Service C σ) (m : Method C σ) (arg : m.Arg) (resp : m.Resp) (msg : Bytes) :
    s ∈ services → m ∈ s.methods →
    req.action = .Str (s.SERVICE_NAME ++ "." ++ m.name) → Serde.decode codec req.msg = some arg →
    (m.run arg st).1 = .ok resp → Serde.encode codec resp = some msg →
    d = .ok ⟨req.seq, some msg, .ok ()⟩
  error (s : Service C σ) (m : Method C σ) (arg : m.Arg) (e : RpcError m.Err) :
    s ∈ services → m ∈ s.methods →
    req.action = .Str (s.SERVICE_NAME ++ "." ++ m.name) → Serde.decode codec req.msg = some arg →
    (m.run arg st).1 = .error e →
    d = .ok ⟨req.seq, none, .error (match e with | .Rpc e => .Rpc e | .User e => RpcErrCodec.encode codec e)⟩

/-- What is not a ping goes to the dispatch. -/
theorem handle_dispatched {f : Serve C σ} {codec : C} {req : RpcSvrReq}
    (h : ∀ n, req.action = .Num n → n ≠ 0 ∨ req.msg ≠ []) (st : σ) :
    (Reader.handle (OccamsRpc.dispatch_req f codec) req st).1 =
      match (OccamsRpc.dispatch_req f codec req st).1 with
      | some resp => .ok resp
      | none => .error (req.seq, some .Decode) := by
  have hne : ¬(req.action = .Num 0 ∧ req.msg.length = 0) := by
    rintro ⟨ha, hm⟩
    exact (h 0 ha).elim (absurd rfl) (absurd (List.length_eq_zero_iff.1 hm))
  rw [Reader.handle, if_neg hne]
  rcases OccamsRpc.dispatch_req f codec req st with ⟨_ | resp, st⟩ <;> rfl

/-- A request that names a service goes to it. -/
theorem handle_routed {f : Serve C σ} {codec : C} {req : RpcSvrReq} {name method : String}
    (ha : req.action = .Str (name ++ "." ++ method)) (hdot : '.' ∉ name.toList) (st : σ) :
    (Reader.handle (OccamsRpc.dispatch_req f codec) req st).1 =
      .ok (f codec ⟨req.seq, name, method, req.msg⟩ st).1 := by
  have hs := split_once_service_method hdot method
  rw [service_method] at hs
  rw [handle_dispatched (fun n hn => by rw [ha] at hn; cases hn)]
  simp only [OccamsRpc.dispatch_req, ha, hs]

theorem split_once_none {action : String} (h : '.' ∉ action.toList) :
    split_once action '.' = none := by
  have hd : action.toList.dropWhile (· ≠ '.') = [] := by
    rw [List.dropWhile_eq_nil_iff]
    intro c hc
    rw [decide_eq_true_eq]
    rintro rfl
    exact h hc
  rw [split_once, hd]

theorem seq_handle (m : Method C σ) (codec : C) (req : APIServerReq) (st : σ) :
    (m.handle codec req st).1.seq = req.seq := by
  unfold Method.handle
  split
  · rfl
  · split
    · simp only [APIServerReq.set_result]
      split <;> rfl
    · rfl

theorem seq_mux (services : List (Service C σ)) (codec : C) (req : APIServerReq) (st : σ) :
    (service_mux_struct services codec req st).1.seq = req.seq := by
  unfold service_mux_struct Service.serve
  split
  · split
    · exact seq_handle _ codec req st
    · rfl
  · rfl

theorem seq_answer (services : List (Service C σ)) (codec : C) (req : RpcSvrReq) (st : σ) :
    sentSeq (Reader.handle (OccamsRpc.dispatch_req (service_mux_struct services) codec) req st).1 =
      req.seq := by
  by_cases hping : req.action = .Num 0 ∧ req.msg.length = 0
  · rw [Reader.handle, if_pos hping]
    rfl
  rw [Reader.handle, if_neg hping]
  cases ha : req.action with
  | Num n =>
    simp only [OccamsRpc.dispatch_req, ha]
    rfl
  | Str action =>
    cases hs : split_once action '.' with
    | none =>
      simp only [OccamsRpc.dispatch_req, ha, hs]
      rfl
    | some p =>
      simp only [OccamsRpc.dispatch_req, ha, hs]
      exact seq_mux services codec _ st

section
variable {services : List (Service C σ)} (hd : (services.map Service.SERVICE_NAME).Nodup)
  {codec : C} {req : RpcSvrReq}
  {s : Service C σ} (hs : s ∈ services)
include hd hs

theorem handle_service {method : String} (ha : req.action = .Str (s.SERVICE_NAME ++ "." ++ method))
    (st : σ) :
    (Reader.handle (OccamsRpc.dispatch_req (service_mux_struct services) codec) req st).1 =
      .ok (s.serve codec ⟨req.seq, s.SERVICE_NAME, method, req.msg⟩ st).1 := by
  rw [handle_routed ha s.no_dot]
  simp only [service_mux_struct, find?_of_nodup hd hs]

theorem handle_method {m : Method C σ} (hm : m ∈ s.methods)
    (ha : req.action = .Str (s.SERVICE_NAME ++ "." ++ m.name)) (st : σ) :
    (Reader.handle (OccamsRpc.dispatch_req (service_mux_struct services) codec) req st).1 =
      .ok (m.handle codec ⟨req.seq, s.SERVICE_NAME, m.name, req.msg⟩ st).1 := by
  rw [handle_service hd hs ha]
  simp only [Service.serve, find?_of_nodup s.distinct hm]

theorem handle_run {m : Method C σ} (hm : m ∈ s.methods)
    (ha : req.action = .Str (s.SERVICE_NAME ++ "." ++ m.name)) {arg : m.Arg}
    (hdec : Serde.decode codec req.msg = some arg) (st : σ) :
    (Reader.handle (OccamsRpc.dispatch_req (service_mux_struct services) codec) req st).1 =
      .ok (match (m.run arg st).1 with
        | .ok resp => APIServerReq.set_result codec ⟨req.seq, s.SERVICE_NAME, m.name, req.msg⟩ resp
        | .error e =>
          APIServerReq.set_error codec ⟨req.seq, s.SERVICE_NAME, m.name, req.msg⟩ e) := by
  rw [handle_method hd hs hm ha]
  simp only [Method.handle, hdec]
  rcases m.run arg st with ⟨e | resp, st⟩ <;> rfl

end

theorem handle_answers {services : List (Service C σ)}
    (hd : (services.map Service.SERVICE_NAME).Nodup) (codec : C) (req : RpcSvrReq) (st : σ) :
    Answers services codec req st
      (Reader.handle (OccamsRpc.dispatch_req (service_mux_struct services) codec) req st).1 := by
  constructor
  case seq => exact seq_answer services codec req st
  case ping =>
    intro ha hm
    simp [Reader.handle, ha, hm]
  case numeric =>
    intro n ha hn
    rw [handle_dispatched (fun k hk => by cases ha.symm.trans hk; exact hn)]
    simp only [OccamsRpc.dispatch_req, ha]
  case no_dot =>
    intro action ha hdot
    rw [handle_dispatched (fun n hn => by rw [ha] at hn; cases hn)]
    simp only [OccamsRpc.dispatch_req, ha, split_once_none hdot]
  case service =>
    intro name method ha hdot hno
    have hfind : services.find? (fun s => s.SERVICE_NAME = name) = none := by
      simpa using hno
    rw [handle_routed ha hdot]
    simp only [service_mux_struct, hfind]
    rfl
  case method =>
    intro s method hs ha hno
    have hfind : s.methods.find? (fun m => m.name = method) = none := by
      simpa using hno
    rw [handle_service hd hs ha]
    simp only [Service.serve, hfind]
    rfl
  case decode =>
    intro s m hs hm ha hdec
    rw [handle_method hd hs hm ha]
    simp only [Method.handle, hdec]
    rfl
  case encode =>
    intro s m arg resp hs hm ha hdec hres henc
    simp only [handle_run hd hs hm ha hdec, hres, APIServerReq.set_result, henc]
  case value =>
    intro s m arg resp msg hs hm ha hdec hres henc
    simp only [handle_run hd hs hm ha hdec, hres, APIServerReq.set_result, henc]
  case error =>
    intro s m arg e hs hm ha hdec hres
    simp only [handle_run hd hs hm ha hdec, hres, APIServerReq.set_error]
    cases e <;> rfl

/-! ## The run of a connection -/

/-- The services registered, and the muxes that hold them. -/
inductive Mux (services : List (Service C σ)) : Serves C σ → Prop
  | mux_dyn (hd : (services.map Service.SERVICE_NAME).Nodup) :
    Mux services (serve_mux_dyn (services.foldl ServiceMuxDyn.add .new))
  | mux_struct (hd : (services.map Service.SERVICE_NAME).Nodup) :
    Mux services (serve_mux_struct services)

/-- Both muxes find the same service. -/
theorem lookup_eq_find? {services : List (Service C σ)}
    (hd : (services.map Service.SERVICE_NAME).Nodup) (name : String) :
    (services.foldl ServiceMuxDyn.add .new).map.lookup name =
      services.find? fun s => s.SERVICE_NAME = name := by
  cases hf : services.find? fun s => s.SERVICE_NAME = name with
  | some s =>
    have hname : s.SERVICE_NAME = name := by simpa using List.find?_some hf
    rw [← hname]
    exact lookup_added (List.mem_of_find?_eq_some hf) hd _
  | none =>
    rw [lookup_add_other]
    · rfl
    · rw [List.mem_map]
      rintro ⟨s, hs, he⟩
      simpa [he] using List.find?_eq_none.1 hf s hs

theorem Mux.answering {services : List (Service C σ)} {service : Serves C σ}
    (h : Mux services service) (codec : C) (req : APIServerReq) :
    Answering (service codec req) (service_mux_struct services codec req) := by
  cases h with
  | mux_struct => exact mux_struct_answering services codec req
  | mux_dyn hd =>
    intro s
    rw [mux_dyn_answering]
    simp only [ServiceMuxDyn.serve, service_mux_struct, lookup_eq_find? hd]

theorem Mux.nodup {services : List (Service C σ)} {service : Serves C σ}
    (h : Mux services service) :
    (services.map Service.SERVICE_NAME).Nodup := by
  cases h <;> assumption

end Serving

/-- A connection of the API server, whose reader may have returned. -/
structure ApiReader (σ : Type) where
  serving : Serving σ
  returned : Bool

namespace ApiReader

open Serving

variable {C σ : Type}

def new (st : σ) : ApiReader σ := ⟨⟨st, .new⟩, false⟩

/-- What the reader meets, and what goes on beside it. -/
inductive Act (σ : Type)
  | read_req (req : RpcSvrReq)
  | read_err
  /-- Another connection changes the state behind the services. -/
  | elsewhere (st : σ)
  | writer_exits

/-- A request is read, handled and answered in one step. The source awaits an `Inline`
handler in the middle of it (`dispatch_req` in `server.rs`), so the runs of this machine
are those in which the writer does not exit and no other connection changes the state
while a handler is awaited. -/
def step (service : Serves C σ) (codec : C) (s : ApiReader σ) : Act σ → Option (ApiReader σ)
  | .read_req req =>
    if s.returned then none
    else
      let r := round service codec req s.serving
      some ⟨r.2, r.1 matches .error _⟩
  | .read_err => if s.returned then none else some { s with returned := true }
  | .elsewhere st => some { s with serving := { s.serving with st := st } }
  | .writer_exits =>
    some { s with serving := { s.serving with noti := { s.serving.noti with rx := false } } }

/-- The requests that were read while the writer was there, and the state of the
services when they were. -/
def reads (tr : List (ApiReader σ × Act σ)) : List (RpcSvrReq × σ) :=
  tr.filterMap fun p =>
    match p.2 with
    | .read_req req => if p.1.serving.noti.rx then some (req, p.1.serving.st) else none
    | _ => none

/-- Requests are answered in the order they are read, each with one response. -/
theorem answers_each_once {services : List (Service C σ)} {service : Serves C σ}
    (hmux : Mux services service) (codec : C) (st : σ) {tr : List (ApiReader σ × Act σ)}
    {s : ApiReader σ} (h : Run (step service codec) (new st) tr s) :
    List.Forall₂ (fun p d => Answers services codec p.1 p.2 d) (reads tr) s.serving.noti.queue := by
  induction h with
  | nil => exact .nil
  | @snoc tr s a s' _ hs ih =>
    simp only [reads, List.filterMap_append] at ih ⊢
    cases a with
    | read_req req =>
      simp only [step] at hs
      split at hs
      · cases hs
      · have hserving : s'.serving = (round service codec req s.serving).2 := by
          rw [← Option.some.inj hs]
        rw [hserving, round_eq (hmux.answering codec)]
        cases hrx : s.serving.noti.rx with
        | false => simpa [RespNoti.done, RespNoti.send, hrx] using ih
        | true =>
          simp only [RespNoti.done, RespNoti.send, hrx, if_true, List.filterMap_cons,
            List.filterMap_nil, Option.getD_some]
          exact List.rel_append ih (.cons (handle_answers hmux.nodup codec req s.serving.st) .nil)
    | read_err =>
      simp only [step] at hs
      split at hs <;> cases hs
      simpa using ih
    | elsewhere st | writer_exits =>
      cases hs
      simpa using ih

/-- A ping, a number, no dot, an unknown service, an unknown method, an argument
that does not decode, and two calls, of which the second asks for too much. -/
def sampleRequests : List RpcSvrReq :=
  [⟨1, .Num 0, [], none⟩, ⟨2, .Num 0, [0], none⟩, ⟨3, .Str "Stock", [], none⟩,
    ⟨4, .Str "Shop.take", [0], none⟩,
    ⟨5, .Str "Stock.give.take", [0], none⟩, ⟨6, .Str "Stock.take", [], none⟩,
    ⟨7, .Str "Stock.take", [0, 0, 0, 0], none⟩,
    ⟨8, .Str "Stock.take", [0, 0, 0, 0], none⟩]

def sampleMux : ServiceMuxDyn Unary Nat := ([stockService] : List _).foldl ServiceMuxDyn.add .new

theorem answers_each_once_stock : ∃ (tr : List (ApiReader Nat × Act Nat)) (s : ApiReader Nat),
    Run (step (serve_mux_dyn sampleMux) ⟨⟩) (new 5) tr s ∧
      (reads tr).map Prod.fst = sampleRequests ∧ s.serving.noti.queue.length = 8 ∧
      s.serving.st = 2 ∧
      List.Forall₂ (fun p d => Answers [stockService] ⟨⟩ p.1 p.2 d) (reads tr) s.serving.noti.queue := by
  have hrun : (follow (step (serve_mux_dyn sampleMux) ⟨⟩) (new 5)
      (sampleRequests.map .read_req ++ [.read_err])).map (fun r =>
        ((reads r.1).map Prod.fst, r.2.serving.noti.queue.length, r.2.serving.st)) =
          some (sampleRequests, 8, 2) := by
    decide +kernel
  obtain ⟨⟨tr, s⟩, hf, hs⟩ := Option.map_eq_some_iff.1 hrun
  simp only [Prod.mk.injEq] at hs
  obtain ⟨hreads, hlen, hst⟩ := hs
  have hmux : Mux [stockService] (serve_mux_dyn sampleMux) := .mux_dyn (by simp [stockService])
  have hr : Run (step (serve_mux_dyn sampleMux) ⟨⟩) (new 5) tr s := .of_follow hf
  exact ⟨tr, s, hr, hreads, hlen, hst, answers_each_once hmux ⟨⟩ 5 hr⟩

end ApiReader

end OccamsRpc
