import OccamsRpc.Lib.Runs
import OccamsRpc.Tcp.Serve
import Mathlib.Data.List.Nodup
/-!
# The reader of a connection and its handlers

`Reader::run` of `stream/src/server/server.rs` over a `DispatchClosure`. Two
parties send responses: a handler, which completes the task it was given whenever
it likes and from any coroutine, and the reader, which acknowledges pings and
answers whatever the dispatch returned `Err` for.
-/
open Lib

namespace OccamsRpc

/-- The channel to the writer of a connection: all that was put in it, and
whether the writer is there to receive. -/
structure RespNoti (M : Type) where
  queue : List M
  rx : Bool

namespace RespNoti

variable {M : Type}

def new : RespNoti M := ⟨[], true⟩

/-- `Err` when the receiver is gone; the message is then lost. -/
def send (noti : RespNoti M) (m : M) : Option (RespNoti M) :=
  if noti.rx then some { noti with queue := noti.queue ++ [m] } else none

/-- The one who is done is not told that the writer is gone. -/
def done (noti : RespNoti M) (m : M) : RespNoti M := (noti.send m).getD noti

end RespNoti

/-- How a request becomes a task. -/
class ServerTaskDecode (C T : Type) where
  decode_req : C → RpcAction → UInt64 → Bytes → Option Bytes → Option T

/-- Tasks of type `T` are completed with `Result<(), E>` and sent as an `R`. -/
class ServerTaskDone (T R E : Type) where
  _set_result : T → Except E Unit → T
  into : T → R

/-- Where the loop of the reader is. -/
inductive ReaderPc
  | read_req
  /-- The handler of request `n` has not returned. -/
  | dispatch (n : Nat) (seq : UInt64)
  | returned
  deriving DecidableEq

/-- Requests are numbered as they are read, and what is sent is kept beside the
number of the request it answers. `completed` and `refused` tell whose task was
completed, and whose handler returned `Err`; no step reads them. -/
structure ServerReader (T R : Type) where
  pc : ReaderPc
  requests : List RpcSvrReq
  tasks : Nat → Option T
  noti : RespNoti (Nat × Done R)
  completed : List Nat
  refused : List Nat

namespace ServerReader

variable {C T R E : Type}

def new : ServerReader T R := ⟨.read_req, [], fun _ => none, .new, [], []⟩

/-- An answer without a handler. The reader returns when there is nobody to send it. -/
def send_quick_resp (s : ServerReader T R) (n : Nat) (seq : UInt64) (err : Option RpcIntErr) :
    ServerReader T R :=
  match s.noti.send (n, .error (seq, err)) with
  | some noti => { s with pc := .read_req, noti := noti }
  | none => { s with pc := .returned }

/-- `DispatchClosure::dispatch_req`, to where it awaits the handler. -/
def dispatch_req [ServerTaskDecode C T] (codec : C) (s : ServerReader T R) (n : Nat)
    (req : RpcSvrReq) :
    ServerReader T R :=
  match (ServerTaskDecode.decode_req codec req.action req.seq req.msg req.blob : Option T) with
  | some task =>
    { s with pc := .dispatch n req.seq, tasks := Function.update s.tasks n (some task) }
  | none => s.send_quick_resp n req.seq (some .Decode)

/-- The reader, the handlers of its requests, and the exit of the writer. -/
inductive Act (T E : Type)
  | read_req (req : RpcSvrReq)
  | read_err
  /-- Whoever has the task of request `n` changes it. -/
  | work (n : Nat) (task : T)
  | set_result (n : Nat) (res : Except E Unit)
  | drop (n : Nat)
  /-- The handler that the reader awaits returns `Ok` or `Err`. -/
  | handled (ok : Bool)
  | writer_exits

/-- A handler may finish long after the reader has gone on, and in any order. -/
def step [ServerTaskDecode C T] [ServerTaskDone T R E] (codec : C) (s : ServerReader T R) :
    Act T E → Option (ServerReader T R)
  | .read_req req =>
    match s.pc with
    | .read_req =>
      let n := s.requests.length
      let s := { s with requests := s.requests ++ [req] }
      some (if req.action = .Num 0 ∧ req.msg.length = 0 then s.send_quick_resp n req.seq none
        else s.dispatch_req codec n req)
    | _ => none
  | .read_err =>
    match s.pc with
    | .read_req => some { s with pc := .returned }
    | _ => none
  | .work n task =>
    if (s.tasks n).isSome then some { s with tasks := Function.update s.tasks n (some task) } else none
  | .set_result n res =>
    match s.tasks n with
    | some task => some { s with
        tasks := Function.update s.tasks n none
        noti := s.noti.done (n, .ok (ServerTaskDone.into E (ServerTaskDone._set_result R task res)))
        completed := s.completed ++ [n] }
    | none => none
  | .drop n =>
    if (s.tasks n).isSome then some { s with tasks := Function.update s.tasks n none } else none
  | .handled ok =>
    match s.pc with
    | .dispatch n seq =>
      if ok then some { s with pc := .read_req }
      else some ({ s with refused := s.refused ++ [n] }.send_quick_resp n seq (some .Decode))
    | _ => none
  | .writer_exits => if s.noti.rx then some { s with noti := { s.noti with rx := false } } else none

/-! ## What a step can do -/

/-- What a step of the reader or of a handler can do. -/
inductive Step (s : ServerReader T R) : Act T E → ServerReader T R → Prop
  | quick (req err) : Step s (.read_req req)
      ({ s with requests := s.requests ++ [req] }.send_quick_resp s.requests.length req.seq err)
  | start (req task) : Step s (.read_req req)
      { s with
        requests := s.requests ++ [req]
        pc := .dispatch s.requests.length req.seq
        tasks := Function.update s.tasks s.requests.length (some task) }
  | read_err : Step s .read_err { s with pc := .returned }
  | work (n task) (h : s.tasks n ≠ none) : Step s (.work n task)
      { s with tasks := Function.update s.tasks n (some task) }
  | set_result (n res d) (h : s.tasks n ≠ none) : Step s (.set_result n res)
      { s with
        tasks := Function.update s.tasks n none
        noti := s.noti.done (n, .ok d)
        completed := s.completed ++ [n] }
  | drop (n) : Step s (.drop n) { s with tasks := Function.update s.tasks n none }
  | accepted (n seq) (h : s.pc = .dispatch n seq) :
    Step s (.handled true) { s with pc := .read_req }
  | refused (n seq) (h : s.pc = .dispatch n seq) : Step s (.handled false)
      ({ s with refused := s.refused ++ [n] }.send_quick_resp n seq (some .Decode))
  | writer_exits : Step s .writer_exits { s with noti := { s.noti with rx := false } }

variable [ServerTaskDecode C T] [ServerTaskDone T R E] {codec : C} {s s' : ServerReader T R}
  {a : Act T E}

theorem step_cases (h : s.step codec a = some s') : Step s a s' := by
  cases a with
  | read_req req =>
    simp only [step] at h
    split at h
    · cases h
      split
      · exact .quick req none
      · unfold dispatch_req
        split
        · exact .start req _
        · exact .quick req _
    · cases h
  | read_err =>
    simp only [step] at h
    split at h <;> cases h
    exact .read_err
  | work n task =>
    simp only [step] at h
    split at h
    case isTrue hs =>
      cases h
      exact .work n task (Option.isSome_iff_ne_none.1 hs)
    case isFalse => cases h
  | set_result n res =>
    simp only [step] at h
    split at h
    case h_1 task ht =>
      cases h
      exact .set_result n res _ (by simp [ht])
    case h_2 => cases h
  | drop n =>
    simp only [step] at h
    split at h <;> cases h
    exact .drop n
  | handled ok =>
    simp only [step] at h
    split at h
    case h_1 n seq hpc =>
      cases ok with
      | true =>
        cases h
        exact .accepted n seq hpc
      | false =>
        cases h
        exact .refused n seq hpc
    case h_2 => cases h
  | writer_exits =>
    simp only [step] at h
    split at h <;> cases h
    exact .writer_exits

theorem send_quick_resp_eq (s : ServerReader T R) (n : Nat) (seq : UInt64)
    (err : Option RpcIntErr) :
    s.send_quick_resp n seq err =
      { s with
        pc := if s.noti.rx then .read_req else .returned,
        noti := s.noti.done (n, .error (seq, err)) } := by
  cases hrx : s.noti.rx <;> simp [send_quick_resp, RespNoti.done, RespNoti.send, hrx]

theorem not_dispatch {rx : Bool} (n : Nat) (seq : UInt64) :
    (if rx then ReaderPc.read_req else .returned) ≠ .dispatch n seq := by
  split <;> nofun

/-- The requests that were answered. -/
def answered (s : ServerReader T R) : List Nat := s.noti.queue.map Prod.fst

/-- A request that was answered has a completed task, or its handler returned
`Err`, or it never reached a handler; and its task, if it lives, was not
completed. -/
structure Known (s : ServerReader T R) : Prop where
  read : ∀ n ∈ s.answered, n < s.requests.length
  past : ∀ n, n ∈ s.completed ∨ n ∈ s.refused → n < s.requests.length
  live : ∀ n, s.tasks n ≠ none → n < s.requests.length ∧ n ∉ s.completed
  awaited : ∀ n seq, s.pc = .dispatch n seq → n < s.requests.length ∧ n ∉ s.refused
  told : s.noti.rx = true → ∀ n, n ∈ s.completed ∨ n ∈ s.refused → n ∈ s.answered
  quick : ∀ n ∈ s.answered, n ∈ s.completed ∨ n ∈ s.refused ∨
    s.tasks n = none ∧ ∀ seq, s.pc ≠ .dispatch n seq

theorem new_known : Known (new : ServerReader T R) where
  read := by simp [new, answered, RespNoti.new]
  past := by simp [new]
  live := by simp [new]
  awaited := by simp [new]
  told := by simp [new]
  quick := by simp [new, answered, RespNoti.new]

/-- The reader does not await a handler any more. -/
theorem Known.leave (hk : Known s) {pc : ReaderPc} (hpc : ∀ n seq, pc ≠ .dispatch n seq) :
    Known { s with pc := pc } :=
  { hk with
    awaited := fun n seq h => absurd h (hpc n seq)
    quick := fun n hn => (hk.quick n hn).imp_right (.imp_right fun h => ⟨h.1, hpc n⟩) }

/-- A task is changed, or dropped. -/
theorem Known.retask (hk : Known s) {n : Nat} {t : Option T} (ht : t ≠ none → s.tasks n ≠ none) :
    Known { s with tasks := Function.update s.tasks n t } := by
  refine { hk with
    live := fun m hm => ?_, quick := fun m hm =>
    (hk.quick m hm).imp_right (.imp_right fun h => ⟨?_, h.2⟩) }
  · simp only [Function.update_apply] at hm
    split at hm
    case isTrue he => exact he ▸ hk.live n (ht hm)
    case isFalse => exact hk.live m hm
  · simp only [Function.update_apply]
    split
    case isTrue he =>
      by_contra hne
      exact ht hne (he ▸ h.1)
    case isFalse => exact h.1

/-- What is sent about request `n` goes together with the note of who sent it. -/
theorem Known.send (hk : Known s) {n : Nat} (hn : n < s.requests.length) (d : Done R)
    {cs rs : List Nat} (hc : cs = s.completed ++ [n] ∧ rs = s.refused ∧ s.tasks n = none ∨
      cs = s.completed ∧ rs = s.refused ++ [n] ∧ (∀ seq, s.pc ≠ .dispatch n seq) ∨
      cs = s.completed ∧ rs = s.refused ∧ s.tasks n = none ∧ ∀ seq, s.pc ≠ .dispatch n seq) :
    Known { s with noti := s.noti.done (n, d), completed := cs, refused := rs } := by
  have hans (m : Nat) : m ∈ (s.noti.done (n, d)).queue.map Prod.fst ↔ m ∈ s.answered ∨
      s.noti.rx = true ∧ m = n := by
    cases hrx : s.noti.rx <;> simp [RespNoti.done, RespNoti.send, hrx, answered]
  have hrx : (s.noti.done (n, d)).rx = s.noti.rx := by
    cases hrx : s.noti.rx <;> simp [RespNoti.done, RespNoti.send, hrx]
  have hcs : ∀ m ∈ cs, m ∈ s.completed ∨ m = n ∧ s.tasks n = none := by grind
  have hrs : ∀ m ∈ rs, m ∈ s.refused ∨ m = n ∧ ∀ seq, s.pc ≠ .dispatch n seq := by grind
  have hmono : ∀ m, (m ∈ s.completed → m ∈ cs) ∧ (m ∈ s.refused → m ∈ rs) := by grind
  refine ⟨fun m hm => ?_, fun m hm => ?_, fun m hm => ?_, fun m seq hm => ?_, fun hr m hm => ?_,
    fun m hm => ?_⟩
  · rcases (hans m).1 hm with hm | ⟨-, rfl⟩
    · exact hk.read m hm
    · exact hn
  · rcases hm with hm | hm
    · rcases hcs m hm with hm | ⟨rfl, -⟩
      · exact hk.past m (.inl hm)
      · exact hn
    · rcases hrs m hm with hm | ⟨rfl, -⟩
      · exact hk.past m (.inr hm)
      · exact hn
  · refine ⟨(hk.live m hm).1, fun hc => ?_⟩
    rcases hcs m hc with hc | ⟨rfl, hnone⟩
    · exact (hk.live m hm).2 hc
    · exact hm hnone
  · refine ⟨(hk.awaited m seq hm).1, fun hr => ?_⟩
    rcases hrs m hr with hr | ⟨rfl, hne⟩
    · exact (hk.awaited m seq hm).2 hr
    · exact hne seq hm
  · rw [hrx] at hr
    refine (hans m).2 ?_
    rcases hm with hm | hm
    · rcases hcs m hm with hm | ⟨rfl, -⟩
      · exact .inl (hk.told hr m (.inl hm))
      · exact .inr ⟨hr, rfl⟩
    · rcases hrs m hm with hm | ⟨rfl, -⟩
      · exact .inl (hk.told hr m (.inr hm))
      · exact .inr ⟨hr, rfl⟩
  · rcases (hans m).1 hm with hm | ⟨-, rfl⟩
    · exact (hk.quick m hm).imp (hmono m).1 (.imp_left (hmono m).2)
    · grind

/-- Another request is read. -/
theorem Known.more (hk : Known s) (req : RpcSvrReq) :
    Known { s with requests := s.requests ++ [req] } := by
  have hlt {n : Nat} (h : n < s.requests.length) : n < (s.requests ++ [req]).length := by
    rw [List.length_append]
    omega
  exact
    { hk with
      read := fun n hn => hlt (hk.read n hn)
      past := fun n hn => hlt (hk.past n hn)
      live := fun n hn => ⟨hlt (hk.live n hn).1, (hk.live n hn).2⟩
      awaited := fun n seq hn => ⟨hlt (hk.awaited n seq hn).1, (hk.awaited n seq hn).2⟩ }

/-- The next request has no task. -/
theorem Known.next_none (hk : Known s) : s.tasks s.requests.length = none := by
  by_contra hne
  exact Nat.lt_irrefl _ (hk.live _ hne).1

theorem Known.start (hk : Known s) (req : RpcSvrReq) (task : T) :
    Known { s with
      requests := s.requests ++ [req]
      pc := .dispatch s.requests.length req.seq
      tasks := Function.update s.tasks s.requests.length (some task) } := by
  have hmore := hk.more req
  have hlt : s.requests.length < (s.requests ++ [req]).length := by simp
  refine { hmore with live := fun m hm => ?_, awaited := ?_, quick := fun m hm => ?_ }
  · simp only [Function.update_apply] at hm
    split at hm
    case isTrue he =>
      subst he
      exact ⟨hlt, fun hc => Nat.lt_irrefl _ (hk.past _ (.inl hc))⟩
    case isFalse => exact hmore.live m hm
  · rintro m seq ⟨⟩
    exact ⟨hlt, fun hr => Nat.lt_irrefl _ (hk.past _ (.inr hr))⟩
  · have hne : m ≠ s.requests.length := Nat.ne_of_lt (hk.read m hm)
    refine (hk.quick m hm).imp_right (.imp_right fun h => ⟨?_, ?_⟩)
    · simp only [Function.update_of_ne hne, h.1]
    · rintro seq ⟨⟩
      exact hne rfl

theorem Known.step (hk : Known s) (h : s.step codec a = some s') : Known s' := by
  cases step_cases h with
  | quick req err =>
    rw [send_quick_resp_eq]
    refine ((hk.more req).leave not_dispatch).send (by simp) _ ?_
    exact .inr (.inr ⟨rfl, rfl, hk.next_none, not_dispatch _⟩)
  | start req task => exact hk.start req task
  | read_err | accepted n seq hpc => exact hk.leave nofun
  | work n task hn => exact hk.retask fun _ => hn
  | set_result n res d hn =>
    refine (hk.retask (n := n) (t := none) nofun).send (hk.live n hn).1 _ (.inl ⟨rfl, rfl, ?_⟩)
    exact Function.update_self ..
  | drop n => exact hk.retask nofun
  | refused n seq hpc =>
    rw [send_quick_resp_eq]
    exact (hk.leave not_dispatch).send (hk.awaited n seq hpc).1 _ (.inr (.inl ⟨rfl, rfl, not_dispatch _⟩))
  | writer_exits => exact { hk with told := nofun }

/-! ## Responses to one request -/

/-- What the writer was sent about request `n`. -/
def responses (s : ServerReader T R) (n : Nat) : List (Nat × Done R) :=
  s.noti.queue.filter fun p => p.1 = n

/-- The task of a request is not completed once its handler has returned `Err`,
and no handler returns `Err` once the task is completed, as long as the writer
is there. -/
def single (s : ServerReader T R) : Act T E → Bool
  | .set_result n _ => !s.noti.rx || n ∉ s.refused
  | .handled false =>
    match s.pc with
    | .dispatch n _ => !s.noti.rx || n ∉ s.completed
    | _ => true
  | _ => true

theorem length_responses (s : ServerReader T R) (n : Nat) :
    (s.responses n).length = s.answered.count n := by
  rw [responses, answered, List.count_eq_countP, List.countP_map, List.countP_eq_length_filter]
  congr

/-- A step sends at most one response, to a request that has none exactly when
the step is `single`. -/
theorem step_sends (hk : Known s) (h : s.step codec a = some s') :
    s'.answered = s.answered ∧ s.single a ∨
    ∃ n, s'.answered = s.answered ++ [n] ∧ (s.single a ↔ n ∉ s.answered) := by
  have hsent (n : Nat) (d : Done R) :
      s.noti.rx = false ∧ (s.noti.done (n, d)).queue.map Prod.fst = s.answered ∨
      s.noti.rx = true ∧ (s.noti.done (n, d)).queue.map Prod.fst = s.answered ++ [n] := by
    cases hrx : s.noti.rx <;> simp [RespNoti.done, RespNoti.send, hrx, answered]
  cases step_cases h with
  | quick req err =>
    rw [send_quick_resp_eq]
    rcases hsent s.requests.length (.error (req.seq, err)) with ⟨-, he⟩ | ⟨-, he⟩
    · exact .inl ⟨he, rfl⟩
    · exact .inr ⟨_, he, fun _ hm => Nat.lt_irrefl _ (hk.read _ hm), fun _ => rfl⟩
  | set_result n res d hn =>
    rcases hsent n (.ok d) with ⟨hrx, he⟩ | ⟨hrx, he⟩
    · exact .inl ⟨he, by simp [single, hrx]⟩
    · refine .inr ⟨n, he, ?_⟩
      simp only [single, hrx, Bool.not_true, Bool.false_or, decide_eq_true_eq]
      refine ⟨fun hs hm => ?_, fun hm hr => hm (hk.told hrx n (.inr hr))⟩
      rcases hk.quick n hm with hc | hr | ⟨ht, -⟩
      · exact (hk.live n hn).2 hc
      · exact hs hr
      · exact hn ht
  | refused n seq hpc =>
    rw [send_quick_resp_eq]
    rcases hsent n (.error (seq, some .Decode)) with ⟨hrx, he⟩ | ⟨hrx, he⟩
    · exact .inl ⟨he, by simp [single, hpc, hrx]⟩
    · refine .inr ⟨n, he, ?_⟩
      simp only [single, hpc, hrx, Bool.not_true, Bool.false_or, decide_eq_true_eq]
      refine ⟨fun hs hm => ?_, fun hm hc => hm (hk.told hrx n (.inl hc))⟩
      rcases hk.quick n hm with hc | hr | ⟨-, hne⟩
      · exact hs hc
      · exact (hk.awaited n seq hpc).2 hr
      · exact hne seq hpc
  | start | read_err | work | drop | accepted | writer_exits => exact .inl ⟨rfl, rfl⟩

/-- The writer of a connection is sent at most one response to each request, in
every state of a run, exactly when no handler both completes its task and
returns `Err` while the writer is there. -/
theorem responds_once_iff {tr : List (ServerReader T R × Act T E)} (h : Run (step codec) new tr s) :
    Always (fun s => ∀ n, (s.responses n).length ≤ 1) tr s ↔ Meets (fun s a => s.single a) tr := by
  have honce (s : ServerReader T R) : (∀ n, (s.responses n).length ≤ 1) ↔ s.answered.Nodup := by
    simp only [length_responses, List.nodup_iff_count_le_one]
  simp only [honce]
  induction h with
  | nil => simp [Always, new, answered, RespNoti.new]
  | @snoc tr s a s' hrun hstep ih =>
    rw [always_snoc, meets_snoc]
    have hk := hrun.inv Known new_known fun _ _ _ hk hs => hk.step hs
    refine (and_congr_left fun _ => ih).trans (and_congr_right fun hmeets => ?_)
    have hnodup : s.answered.Nodup := (ih.2 hmeets).2
    rcases step_sends hk hstep with ⟨he, hs⟩ | ⟨n, he, hs⟩
    · rw [he]
      exact ⟨fun _ => hs, fun _ => hnodup⟩
    · rw [he, hs, List.nodup_append_comm, List.singleton_append, List.nodup_cons]
      exact and_iff_left hnodup

/-- A task that has its seq and its result. -/
structure SampleTask where
  seq : UInt64
  res : Option (Except UInt32 Unit)

instance : ServerTaskDecode Unit SampleTask := ⟨fun _ _ seq _ _ => some ⟨seq, none⟩⟩

instance : ServerTaskDone SampleTask SampleTask UInt32 :=
  ⟨fun t res => { t with res := some res }, id⟩

def sampleReq (seq : UInt64) : RpcSvrReq := ⟨seq, .Num 1, [1], none⟩

/-- A handler that returned `Ok` completes its task while the next one is
refused. -/
theorem responds_once_late :
    ∃ (tr : List (ServerReader SampleTask SampleTask × Act SampleTask UInt32)) (s : _),
    Run (step ()) new tr s ∧ s.requests.length = 3 ∧ s.noti.queue.length = 3 ∧
      Always (fun s => ∀ n, (s.responses n).length ≤ 1) tr s := by
  have hrun : (follow (step (E := UInt32) ()) (new : ServerReader SampleTask SampleTask)
      [.read_req (sampleReq 1), .handled true, .read_req ⟨2, .Num 0, [], none⟩,
        .read_req (sampleReq 3), .drop 2,
        .set_result 0 (.ok ()), .handled false, .writer_exits]).map (fun r =>
      (r.1.all fun p => p.1.single p.2, r.2.requests.length, r.2.noti.queue.length)) =
        some (true, 3, 3) := by
    decide +kernel
  obtain ⟨⟨tr, s⟩, hf, hs⟩ := Option.map_eq_some_iff.1 hrun
  simp only [Prod.mk.injEq, List.all_eq_true] at hs
  obtain ⟨hm, hreq, hq⟩ := hs
  exact ⟨tr, s, .of_follow hf, hreq, hq, (responds_once_iff (.of_follow hf)).2 hm⟩

/-- A handler answers that it does not know the action, and returns `Err`. -/
theorem answered_and_refused :
    ∃ (tr : List (ServerReader SampleTask SampleTask × Act SampleTask UInt32)) (s : _),
    Run (step ()) new tr s ∧ s.requests = [sampleReq 7] ∧ (s.responses 0).length = 2 := by
  have hrun : (follow (step (E := UInt32) ()) (new : ServerReader SampleTask SampleTask)
      [.read_req (sampleReq 7), .set_result 0 (.error 38), .handled false]).map (fun r =>
      (r.2.requests, (r.2.responses 0).length)) = some ([sampleReq 7], 2) := by
    decide +kernel
  obtain ⟨⟨tr, s⟩, hf, hs⟩ := Option.map_eq_some_iff.1 hrun
  simp only [Prod.mk.injEq] at hs
  exact ⟨tr, s, .of_follow hf, hs.1, hs.2⟩

end ServerReader

end OccamsRpc
