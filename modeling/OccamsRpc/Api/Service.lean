import OccamsRpc.Api.Task
import OccamsRpc.Tcp.Request
import Mathlib.Data.List.AList
/-!
# Services and their dispatch

What `#[service]`, `ServiceMuxDyn` and `#[service_mux_struct]` make of a request,
and `APIDispatch` with `Inline` above them. A service may keep state: a method is
a function of its argument and of the state `σ` of everything behind the server.
-/

namespace OccamsRpc

/-- A method of a service trait, with the types of its signature and what codec
`C` does with them. -/
structure Method (C σ : Type) where
  name : String
  Arg : Type
  Resp : Type
  Err : Type
  [serdeArg : Serde C Arg]
  [serdeResp : Serde C Resp]
  [inhabitedResp : Inhabited Resp]
  [errCodec : RpcErrCodec C Err]
  run : Arg → σ → Except (RpcError Err) Resp × σ

attribute [instance] Method.serdeArg Method.serdeResp Method.inhabitedResp Method.errCodec

/-- A trait implemented under `#[service]`: names are identifiers, and no two
methods have the same one. -/
structure Service (C σ : Type) where
  SERVICE_NAME : String
  methods : List (Method C σ)
  no_dot : '.' ∉ SERVICE_NAME.toList
  distinct : (methods.map Method.name).Nodup

/-- `ServiceStatic::serve`: the response sent, and the state after. -/
abbrev Serve (C σ : Type) := C → APIServerReq → σ → APIServerResp × σ

section
variable {C σ : Type}

/-- The generated `__handle_` method. -/
def Method.handle (m : Method C σ) : Serve C σ := fun codec req st =>
  match (Serde.decode codec req.req : Option m.Arg) with
  | none => (req.set_rpc_error .Decode, st)
  | some arg =>
    match m.run arg st with
    | (.ok resp, st) => (req.set_result codec resp, st)
    | (.error e, st) => (req.set_error codec e, st)

/-- A service alone: the name before the dot is not looked at. -/
def Service.serve (s : Service C σ) : Serve C σ := fun codec req st =>
  match s.methods.find? fun m => m.name = req.method with
  | some m => m.handle codec req st
  | none => (req.set_rpc_error .Method, st)

/-- The services added, by name. -/
structure ServiceMuxDyn (C σ : Type) where
  map : AList fun _ : String => Service C σ

namespace ServiceMuxDyn

def new : ServiceMuxDyn C σ := ⟨∅⟩

/-- A service of the same name is replaced. -/
def add (self : ServiceMuxDyn C σ) (service : Service C σ) : ServiceMuxDyn C σ :=
  ⟨self.map.insert service.SERVICE_NAME service⟩

/-- The service of the request, or `Service` as the error. -/
def serve (self : ServiceMuxDyn C σ) : Serve C σ := fun codec req st =>
  match self.map.lookup req.service with
  | some service => service.serve codec req st
  | none => (req.set_rpc_error .Service, st)

end ServiceMuxDyn

/-- The `serve` that `#[service_mux_struct]` generates from the struct's fields. -/
def service_mux_struct (fields : List (Service C σ)) : Serve C σ := fun codec req st =>
  match fields.find? fun s => s.SERVICE_NAME = req.service with
  | some s => s.serve codec req st
  | none => (req.set_rpc_error .Service, st)

/-! ## Dispatch -/

/-- `str::split_once` -/
def split_once (s : String) (c : Char) : Option (String × String) :=
  match s.toList.dropWhile (· ≠ c) with
  | _ :: rest => some (.ofList (s.toList.takeWhile (· ≠ c)), .ofList rest)
  | [] => none

/-- `APIDispatch::dispatch_req` over `Inline`; `none` is `Err(())`. -/
def dispatch_req (serve : Serve C σ) (codec : C) (req : RpcSvrReq) (st : σ) :
    Option APIServerResp × σ :=
  match req.action with
  | .Str action =>
    match split_once action '.' with
    | some (service, method) =>
      let (resp, st) := serve codec ⟨req.seq, service, method, req.msg⟩ st
      (some resp, st)
    | none => (none, st)
  | .Num _ => (none, st)

/-- "Service.method", as `endpoint_async` puts it together. -/
def service_method (service method : String) : String := service ++ "." ++ method

theorem split_once_service_method {service : String} (h : '.' ∉ service.toList) (method : String) :
    split_once (service_method service method) '.' = some (service, method) := by
  have hl : (service_method service method).toList = service.toList ++ '.' :: method.toList := by
    simp [service_method]
  have hne : ∀ c ∈ service.toList, decide (c ≠ '.') = true := by
    intro c hc
    rw [decide_eq_true_eq]
    rintro rfl
    exact h hc
  rw [split_once, hl, List.takeWhile_append_of_pos hne, List.dropWhile_append_of_pos hne]
  simp

/-! ## Routing -/

/-- The ways to register a service: alone, or in one of the two muxes beside
services of other names. -/
inductive Registered (s : Service C σ) : Serve C σ → Prop
  | alone : Registered s s.serve
  | mux_dyn (services : List (Service C σ)) (hs : s ∈ services)
    (hd : (services.map Service.SERVICE_NAME).Nodup) :
    Registered s (services.foldl ServiceMuxDyn.add .new).serve
  | mux_struct (fields : List (Service C σ)) (hs : s ∈ fields)
    (hd : (fields.map Service.SERVICE_NAME).Nodup) :
    Registered s (service_mux_struct fields)

theorem lookup_add_other {services : List (Service C σ)} {name : String}
    (h : name ∉ services.map Service.SERVICE_NAME) (mux : ServiceMuxDyn C σ) :
    (services.foldl ServiceMuxDyn.add mux).map.lookup name = mux.map.lookup name := by
  induction services generalizing mux with
  | nil => rfl
  | cons t ts ih =>
    rw [List.map_cons, List.mem_cons, not_or] at h
    rw [List.foldl_cons, ih h.2, ServiceMuxDyn.add, AList.lookup_insert_ne h.1]

theorem lookup_added {s : Service C σ} {services : List (Service C σ)} (hs : s ∈ services)
    (hd : (services.map Service.SERVICE_NAME).Nodup) (mux : ServiceMuxDyn C σ) :
    (services.foldl ServiceMuxDyn.add mux).map.lookup s.SERVICE_NAME = some s := by
  induction services generalizing mux with
  | nil => cases hs
  | cons t ts ih =>
    rw [List.map_cons, List.nodup_cons] at hd
    rcases List.mem_cons.1 hs with rfl | hs
    · rw [List.foldl_cons, lookup_add_other hd.1, ServiceMuxDyn.add, AList.lookup_insert]
    · exact ih hs hd.2 _

/-- With distinct names, `find?` finds the one asked for. -/
theorem find?_of_nodup {α : Type 1} {name : α → String} {l : List α} (hd : (l.map name).Nodup)
    {a : α} (ha : a ∈ l) :
    l.find? (fun b => name b = name a) = some a := by
  induction l with
  | nil => cases ha
  | cons b l ih =>
    rw [List.map_cons, List.nodup_cons] at hd
    rcases List.mem_cons.1 ha with rfl | ha
    · simp
    · have hne : name b ≠ name a := fun he => hd.1 (he ▸ List.mem_map_of_mem ha)
      rw [List.find?_cons_of_neg (by simpa using hne)]
      exact ih hd.2 ha

/-- However the service is registered, a request that names it and one of its
methods reaches that method's handler. -/
theorem Registered.serve_eq {s : Service C σ} {serve : Serve C σ} (h : Registered s serve)
    {m : Method C σ} (hm : m ∈ s.methods) (codec : C) (seq : UInt64) (req : Bytes) (st : σ) :
    serve codec ⟨seq, s.SERVICE_NAME, m.name, req⟩ st =
      m.handle codec ⟨seq, s.SERVICE_NAME, m.name, req⟩ st := by
  have hserve : s.serve codec ⟨seq, s.SERVICE_NAME, m.name, req⟩ st =
      m.handle codec ⟨seq, s.SERVICE_NAME, m.name, req⟩ st := by
    simp only [Service.serve, find?_of_nodup s.distinct hm]
  cases h with
  | alone => exact hserve
  | mux_dyn services hs hd => simp only [ServiceMuxDyn.serve, lookup_added hs hd, hserve]
  | mux_struct fields hs hd => simp only [service_mux_struct, find?_of_nodup hd hs, hserve]

end

end OccamsRpc
