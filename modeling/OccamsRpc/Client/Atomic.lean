import OccamsRpc.Client.Select
import OccamsRpc.Client.Reuse
import OccamsRpc.Lib.Runs
/-!
# The failover pool, one atomic operation at a time

In `Client/Failover.lean` a call is one step. Here calls of `send_req`,
`update_addrs` and the rounds of `retry_worker` interleave: a step is one access
to `pools`, `ver`, `rr_counter` or the retry channel. Between its `load` and the
use of what it loaded a call holds a configuration that may not be the installed
one any more. The health of the pools is read during the scan, each at its own
time, so the scan is told what it reads.

Finished calls, the configurations installed so far and the search that a task's
index came from are kept; no step reads them.
-/

namespace OccamsRpc

/-- The first part of `select`: where to start, unless there are no pools, and the
counter after. -/
def ClusterConfig.draw (self : ClusterConfig) (round_robin : Bool) (rr_counter : Nat)
    (last_index : Option Nat) :
    Option Nat × Nat :=
  if self.pools.length = 0 then (none, rr_counter)
  else
    match last_index with
    | some index => (some (usize (index + 1)), rr_counter)
    | none =>
      if round_robin then (some rr_counter, usize (rr_counter + 1)) else (some 0, rr_counter)

/-- `select` draws, and scans from there. -/
theorem ClusterConfig.select_eq (self : ClusterConfig) (is_healthy : Nat → Bool)
    (round_robin : Bool) (rr_counter : Nat) (last_index : Option Nat) :
    self.select is_healthy round_robin rr_counter last_index =
      ((self.draw round_robin rr_counter last_index).1.bind (self.scan is_healthy),
        (self.draw round_robin rr_counter last_index).2) := by
  unfold select draw scan
  by_cases hl : self.pools.length = 0
  · rw [if_pos hl, if_pos hl]
    rfl
  · rw [if_neg hl, if_neg hl]
    cases last_index with
    | some index => rfl
    | none => cases round_robin <;> rfl

theorem ClusterConfig.draw_none {self : ClusterConfig} {round_robin : Bool}
    {rr_counter rr_counter' : Nat} {last_index : Option Nat}
    (h : self.draw round_robin rr_counter last_index = (none, rr_counter')) :
    self.pools.length = 0 ∧ rr_counter' = rr_counter := by
  unfold draw at h
  split at h
  case isTrue hl =>
    cases h
    exact ⟨hl, rfl⟩
  case isFalse hl =>
    split at h
    · cases h
    · split at h <;> cases h

/-- What it draws is where `select` starts. -/
theorem ClusterConfig.draw_seed {self : ClusterConfig} {round_robin : Bool}
    {rr_counter seed rr_counter' : Nat} {last_index : Option Nat}
    (h : self.draw round_robin rr_counter last_index = (some seed, rr_counter'))
    (is_healthy : Nat → Bool) :
    Search.seed ⟨self, is_healthy, round_robin, seed, last_index⟩ = seed := by
  unfold draw at h
  split at h
  · cases h
  · cases last_index with
    | some index =>
      cases h
      rfl
    | none =>
      cases round_robin
      · cases h
        rfl
      · rfl

/-! ## The calls -/

/-- Where a call of `send_req` or `send_req_blocking` is. -/
inductive SendReqPc
  | called
  | loaded (cluster : Option ClusterConfig)
  | seeded (cluster : ClusterConfig) (seed : Nat)
  | returned (selected : Option (Nat × Pool))

/-- A call of `send_req` and where it is. -/
structure SendReqCall (T : Type) where
  task : T
  pc : SendReqPc

/-- Where a call of `update_addrs` is. -/
inductive UpdatePc
  | called
  | loaded (old_pools : List Pool)
  | drawn (cluster : ClusterConfig)
  | returned (cluster : ClusterConfig)

/-- A call of `update_addrs` and where it is. -/
structure UpdateCall where
  addrs : List String
  pc : UpdatePc

/-- A task on its way, with the search that its `last_index` came from. -/
structure Sent (T : Type) where
  task : FailoverTask T
  origin : Search

/-- The task as `send_req` submits it after the search `q`. -/
def Sent.first {T : Type} (q : Search) (index : Nat) (task : T) : Sent T :=
  ⟨⟨index, q.cluster.ver, task, 0, false⟩, q⟩

/-- The task as `retry_worker` submits it after the search `q`. -/
def Sent.again {T : Type} (t : Sent T) (q : Search) (index : Nat) : Sent T :=
  ⟨{ t.task with last_index := index }, q⟩

/-- Where `retry_worker` is. -/
inductive RetryPc (T : Type)
  | idle
  | received (t : Sent T)
  | loaded (t : Sent T) (cluster : Option ClusterConfig)
  | seeded (t : Sent T) (cluster : ClusterConfig) (last_index : Option Nat) (seed : Nat)

/-- What `FailoverPoolInner` shares, and where its users are. -/
structure AtomicPool (T : Type) where
  round_robin : Bool
  retry_limit : Nat
  pools : Option ClusterConfig
  ver : Nat
  rr_counter : Nat
  next_id : Nat
  /-- The `FailoverPool` has not been dropped. -/
  handle : Bool
  /-- The retry channel, the oldest first. -/
  retry : List (Sent T)
  /-- Submitted to a pool, and the attempt has not ended. -/
  in_flight : List (Sent T)
  sends : List (SendReqCall T)
  worker : RetryPc T
  updates : List UpdateCall
  /-- The configurations stored so far, the oldest first. -/
  installed : List ClusterConfig

def SendReqPc.isReturned : SendReqPc → Bool
  | .returned _ => true
  | _ => false

def UpdatePc.isReturned : UpdatePc → Bool
  | .returned _ => true
  | _ => false

namespace AtomicPool

variable {C T : Type} [ClientTaskCommon T] [ClientTask C T]

def new (addrs : List String) (round_robin : Bool) (retry_limit : Nat) : AtomicPool T where
  round_robin := round_robin
  retry_limit := retry_limit
  pools := some ⟨(reuse_pools 0 ∅ addrs).1, 0⟩
  ver := 1
  rr_counter := 0
  next_id := (reuse_pools 0 ∅ addrs).2
  handle := true
  retry := []
  in_flight := []
  sends := []
  worker := .idle
  updates := []
  installed := [⟨(reuse_pools 0 ∅ addrs).1, 0⟩]

/-- Each step is one access to what the threads share. -/
inductive Act (T : Type)
  | send (task : T)
  | send_load (i : Nat)
  | send_draw (i : Nat)
  | send_scan (i : Nat) (is_healthy : Nat → Bool)
  /-- An attempt ends. -/
  | resolve (i : Nat) (a : Attempt)
  | retry_recv
  | retry_load
  | retry_draw
  | retry_scan (is_healthy : Nat → Bool)
  | update (addrs : List String)
  | update_load (i : Nat)
  | update_draw (i : Nat)
  | update_store (i : Nat)
  /-- The `FailoverPool` is dropped; no call borrows it then. -/
  | drop

def setSend (s : AtomicPool T) (i : Nat) (task : T) (pc : SendReqPc) : AtomicPool T :=
  { s with sends := s.sends.set i ⟨task, pc⟩ }

def setUpdate (s : AtomicPool T) (i : Nat) (addrs : List String) (pc : UpdatePc) : AtomicPool T :=
  { s with updates := s.updates.set i ⟨addrs, pc⟩ }

/-! ### `send_req` -/

/-- The cluster that the call works with from now on. -/
def send_load (s : AtomicPool T) (i : Nat) : Option (AtomicPool T) :=
  match s.sends[i]? with
  | some ⟨task, .called⟩ => some (s.setSend i task (.loaded s.pools))
  | _ => none

/-- Where to start: at the next value of the shared counter, or at the first pool. -/
def send_draw (s : AtomicPool T) (i : Nat) : Option (AtomicPool T) :=
  match s.sends[i]? with
  | some ⟨task, .loaded (some cluster)⟩ =>
    match cluster.draw s.round_robin s.rr_counter none with
    | (some seed, rr_counter) =>
      some ({ s with rr_counter := rr_counter }.setSend i task (.seeded cluster seed))
    | (none, rr_counter) =>
      some ({ s with rr_counter := rr_counter }.setSend i task (.returned none))
  | some ⟨task, .loaded none⟩ => some (s.setSend i task (.returned none))
  | _ => none

/-- The first healthy pool from the seed on, or `Unreachable`. -/
def send_scan (s : AtomicPool T) (i : Nat) (is_healthy : Nat → Bool) : Option (AtomicPool T) :=
  match s.sends[i]? with
  | some ⟨task, .seeded cluster seed⟩ =>
    match cluster.scan is_healthy seed with
    | some (index, pool) =>
      let sent := Sent.first ⟨cluster, is_healthy, s.round_robin, seed, none⟩ index task
      some ({ s with in_flight := s.in_flight ++ [sent] }.setSend i task (.returned (some (index, pool))))
    | none => some (s.setSend i task (.returned none))
  | _ => none

/-! ### `update_addrs` -/

def update_load (s : AtomicPool T) (i : Nat) : Option (AtomicPool T) :=
  match s.updates[i]? with
  | some ⟨addrs, .called⟩ =>
    some (s.setUpdate i addrs (.loaded ((s.pools.map ClusterConfig.pools).getD [])))
  | _ => none

/-- The pools of known addresses are reused. The version is drawn apart from the store of
the cluster, so that two calls may store in the other order. -/
def update_draw (s : AtomicPool T) (i : Nat) : Option (AtomicPool T) :=
  match s.updates[i]? with
  | some ⟨addrs, .loaded old_pools⟩ =>
    let (new_pools, next_id) := reuse_pools s.next_id (old_pools_map old_pools) addrs
    let new_ver := u64 (s.ver + 1)
    some ({ s with ver := new_ver, next_id := next_id }.setUpdate i addrs (.drawn ⟨new_pools, new_ver⟩))
  | _ => none

def update_store (s : AtomicPool T) (i : Nat) : Option (AtomicPool T) :=
  match s.updates[i]? with
  | some ⟨addrs, .drawn cluster⟩ =>
    some ({ s with pools := some cluster, installed := s.installed ++ [cluster] }.setUpdate i addrs
      (.returned cluster))
  | _ => none

/-! ### `retry_worker` -/

def retry_recv (s : AtomicPool T) : Option (AtomicPool T) :=
  match s.worker, s.retry with
  | .idle, t :: retry => some { s with retry := retry, worker := .received t }
  | _, _ => none

def retry_load (s : AtomicPool T) : Option (AtomicPool T) :=
  match s.worker with
  | .received t => some { s with worker := .loaded t s.pools }
  | _ => none

/-- The last pool is avoided only in the cluster it is a pool of. -/
def retry_draw (s : AtomicPool T) : Option (AtomicPool T) :=
  match s.worker with
  | .loaded t (some cluster) =>
    let last_index := if cluster.ver = t.task.cluster_ver then some t.task.last_index else none
    let t := { t with task := { t.task with cluster_ver := cluster.ver } }
    match cluster.draw s.round_robin s.rr_counter last_index with
    | (some seed, rr_counter) =>
      some { s with rr_counter := rr_counter, worker := .seeded t cluster last_index seed }
    | (none, rr_counter) => some { s with rr_counter := rr_counter, worker := .idle }
  | .loaded _ none => some { s with worker := .idle }
  | _ => none

def retry_scan (s : AtomicPool T) (is_healthy : Nat → Bool) : Option (AtomicPool T) :=
  match s.worker with
  | .seeded t cluster last_index seed =>
    match cluster.scan is_healthy seed with
    | some (index, _) =>
      let sent := t.again ⟨cluster, is_healthy, s.round_robin, seed, last_index⟩ index
      some { s with in_flight := s.in_flight ++ [sent], worker := .idle }
    | none => some { s with worker := .idle }
  | _ => none

/-- An attempt ends, and `error_handle` of the pool decides about a retry. -/
def resolve (codec : C) (s : AtomicPool T) (i : Nat) (a : Attempt) : Option (AtomicPool T) :=
  match s.in_flight[i]? with
  | none => none
  | some t =>
    let task := a.settle codec t.task
    let s := { s with in_flight := s.in_flight.eraseIdx i }
    match a.ending with
    | .ok => some s
    | _ =>
      if task.should_retry ∧ task.retry ≤ s.retry_limit
        then some { s with retry := s.retry ++ [⟨task, t.origin⟩] }
      else some s

/-- Any interleaving of the calls, the retry worker and the attempts. -/
def step (codec : C) (s : AtomicPool T) : Act T → Option (AtomicPool T)
  | .send task => if s.handle then some { s with sends := s.sends ++ [⟨task, .called⟩] } else none
  | .update addrs =>
    if s.handle then some { s with updates := s.updates ++ [⟨addrs, .called⟩] } else none
  | .resolve i a => s.resolve codec i a
  | .drop =>
    if s.handle ∧ (∀ c ∈ s.sends, c.pc.isReturned) ∧ ∀ u ∈ s.updates, u.pc.isReturned then
      some { s with handle := false, pools := none }
    else none
  | .send_load i => s.send_load i
  | .send_draw i => s.send_draw i
  | .send_scan i is_healthy => s.send_scan i is_healthy
  | .update_load i => s.update_load i
  | .update_draw i => s.update_draw i
  | .update_store i => s.update_store i
  | .retry_recv => s.retry_recv
  | .retry_load => s.retry_load
  | .retry_draw => s.retry_draw
  | .retry_scan is_healthy => s.retry_scan is_healthy

/-! ## What a step can do -/

/-- The effects of `step`. -/
inductive Step (codec : C) (s : AtomicPool T) : Act T → AtomicPool T → Prop
  | send (task : T) :
    s.handle = true → Step codec s (.send task) { s with sends := s.sends ++ [⟨task, .called⟩] }
  | send_load {i task} : s.sends[i]? = some ⟨task, .called⟩ →
      Step codec s (.send_load i) (s.setSend i task (.loaded s.pools))
  | send_draw {i task cluster seed rr_counter} : s.sends[i]? = some ⟨task, .loaded (some cluster)⟩ →
      cluster.draw s.round_robin s.rr_counter none = (some seed, rr_counter) →
      Step codec s (.send_draw i) ({ s with rr_counter := rr_counter }.setSend i task (.seeded cluster seed))
  | send_none {i task cluster} : s.sends[i]? = some ⟨task, .loaded cluster⟩ →
      (∀ c, cluster = some c → c.pools.length = 0) →
      Step codec s (.send_draw i) (s.setSend i task (.returned none))
  | send_pick {i task cluster seed is_healthy index pool} :
      s.sends[i]? = some ⟨task, .seeded cluster seed⟩ →
      cluster.scan is_healthy seed = some (index, pool) →
      Step codec s (.send_scan i is_healthy) ({ s with in_flight := s.in_flight ++
        [Sent.first ⟨cluster, is_healthy, s.round_robin, seed, none⟩ index task] }.setSend i task
          (.returned (some (index, pool))))
  | send_miss {i task cluster seed is_healthy} : s.sends[i]? = some ⟨task, .seeded cluster seed⟩ →
      cluster.scan is_healthy seed = none →
      Step codec s (.send_scan i is_healthy) (s.setSend i task (.returned none))
  | resolve_done {i a} : Step codec s (.resolve i a) { s with in_flight := s.in_flight.eraseIdx i }
  | resolve_retry {i a t} : s.in_flight[i]? = some t → Step codec s (.resolve i a)
      { s with in_flight := s.in_flight.eraseIdx i, retry := s.retry ++ [⟨a.settle codec t.task, t.origin⟩] }
  | retry_recv {t retry} : s.worker = .idle → s.retry = t :: retry →
      Step codec s .retry_recv { s with retry := retry, worker := .received t }
  | retry_load {t} :
    s.worker = .received t → Step codec s .retry_load { s with worker := .loaded t s.pools }
  | retry_draw {t cluster last_index seed rr_counter} : s.worker = .loaded t (some cluster) →
      last_index = (if cluster.ver = t.task.cluster_ver then some t.task.last_index else none) →
      cluster.draw s.round_robin s.rr_counter last_index = (some seed, rr_counter) →
      Step codec s .retry_draw { s with
        rr_counter := rr_counter
        worker := .seeded ⟨{ t.task with cluster_ver := cluster.ver }, t.origin⟩ cluster last_index seed }
  | retry_none : Step codec s .retry_draw { s with worker := .idle }
  | retry_pick {t cluster last_index seed is_healthy index pool} :
      s.worker = .seeded t cluster last_index seed →
      cluster.scan is_healthy seed = some (index, pool) →
      Step codec s (.retry_scan is_healthy) { s with
        in_flight := s.in_flight ++ [t.again ⟨cluster, is_healthy, s.round_robin, seed, last_index⟩ index]
        worker := .idle }
  | retry_miss {is_healthy} : Step codec s (.retry_scan is_healthy) { s with worker := .idle }
  | update (addrs : List String) : s.handle = true →
      Step codec s (.update addrs) { s with updates := s.updates ++ [⟨addrs, .called⟩] }
  | update_load {i addrs} : s.updates[i]? = some ⟨addrs, .called⟩ →
      Step codec s (.update_load i)
      (s.setUpdate i addrs (.loaded ((s.pools.map ClusterConfig.pools).getD [])))
  | update_draw {i addrs old_pools} : s.updates[i]? = some ⟨addrs, .loaded old_pools⟩ →
      Step codec s (.update_draw i) ({ s with
        ver := u64 (s.ver + 1)
        next_id := (reuse_pools s.next_id (old_pools_map old_pools) addrs).2 }.setUpdate i addrs
          (.drawn ⟨(reuse_pools s.next_id (old_pools_map old_pools) addrs).1, u64 (s.ver + 1)⟩))
  | update_store {i addrs cluster} : s.updates[i]? = some ⟨addrs, .drawn cluster⟩ →
      Step codec s (.update_store i)
      ({ s with pools := some cluster, installed := s.installed ++ [cluster] }.setUpdate i
        addrs (.returned cluster))
  | drop : s.handle = true → (∀ c ∈ s.sends, c.pc.isReturned = true) →
      (∀ u ∈ s.updates, u.pc.isReturned = true) →
      Step codec s .drop { s with handle := false, pools := none }

section
variable {codec : C} {s s' : AtomicPool T}

theorem send_draw_cases {i : Nat} (h : s.send_draw i = some s') :
    Step codec s (.send_draw i) s' := by
  unfold send_draw at h
  split at h
  · split at h
    · cases h
      exact .send_draw ‹_› ‹_›
    · obtain ⟨hempty, rfl⟩ := ClusterConfig.draw_none ‹_›
      cases h
      refine .send_none ‹_› ?_
      rintro _ ⟨⟩
      exact hempty
  · cases h
    exact .send_none ‹_› (by rintro _ ⟨⟩)
  · cases h

theorem send_scan_cases {i : Nat} {is_healthy : Nat → Bool}
    (h : s.send_scan i is_healthy = some s') :
    Step codec s (.send_scan i is_healthy) s' := by
  unfold send_scan at h
  split at h
  · split at h
    · cases h
      exact .send_pick ‹_› ‹_›
    · cases h
      exact .send_miss ‹_› ‹_›
  · cases h

theorem resolve_step_cases {i : Nat} {a : Attempt} (h : s.resolve codec i a = some s') :
    Step codec s (.resolve i a) s' := by
  unfold resolve at h
  split at h
  · cases h
  · dsimp only at h
    split at h
    · cases h
      exact .resolve_done
    · split at h
      · cases h
        exact .resolve_retry ‹_›
      · cases h
        exact .resolve_done

theorem retry_draw_cases (h : s.retry_draw = some s') : Step codec s .retry_draw s' := by
  unfold retry_draw at h
  split at h
  · dsimp only at h
    split at h
    · cases h
      exact .retry_draw ‹_› rfl ‹_›
    · obtain ⟨-, rfl⟩ := ClusterConfig.draw_none ‹_›
      cases h
      exact .retry_none
  · cases h
    exact .retry_none
  · cases h

theorem retry_scan_cases {is_healthy : Nat → Bool} (h : s.retry_scan is_healthy = some s') :
    Step codec s (.retry_scan is_healthy) s' := by
  unfold retry_scan at h
  split at h
  · split at h
    · cases h
      exact .retry_pick ‹_› ‹_›
    · cases h
      exact .retry_miss
  · cases h

theorem step_cases {a : Act T} (h : s.step codec a = some s') : Step codec s a s' := by
  cases a with
  | send task =>
    obtain ⟨hh, ⟨⟩⟩ := Option.ite_none_right_eq_some.1 h
    exact .send task hh
  | update addrs =>
    obtain ⟨hh, ⟨⟩⟩ := Option.ite_none_right_eq_some.1 h
    exact .update addrs hh
  | drop =>
    obtain ⟨⟨hh, hs, hu⟩, ⟨⟩⟩ := Option.ite_none_right_eq_some.1 h
    exact .drop hh hs hu
  | resolve i a => exact resolve_step_cases h
  | send_draw i => exact send_draw_cases h
  | send_scan i is_healthy => exact send_scan_cases h
  | retry_draw => exact retry_draw_cases h
  | retry_scan is_healthy => exact retry_scan_cases h
  | send_load i =>
    simp only [step, send_load] at h
    split at h
    · cases h
      exact .send_load ‹_›
    · cases h
  | retry_recv =>
    simp only [step, retry_recv] at h
    split at h
    · cases h
      exact .retry_recv ‹_› ‹_›
    · cases h
  | retry_load =>
    simp only [step, retry_load] at h
    split at h
    · cases h
      exact .retry_load ‹_›
    · cases h
  | update_load i =>
    simp only [step, update_load] at h
    split at h
    · cases h
      exact .update_load ‹_›
    · cases h
  | update_draw i =>
    simp only [step, update_draw] at h
    split at h
    · cases h
      exact .update_draw ‹_›
    · cases h
  | update_store i =>
    simp only [step, update_store] at h
    split at h
    · cases h
      exact .update_store ‹_›
    · cases h

end

end AtomicPool

end OccamsRpc
