import OccamsRpc.Stream.Task
import Mathlib.Data.List.AList
import Mathlib.Logic.Function.Basic
/-!
# The failover pool

`FailoverPool` of `stream/src/client/failover.rs`: a task is given to a pool of
the current configuration; when an attempt fails with an error worth a retry, the
task goes through the retry channel to the retry worker, which picks the next
pool. What happens inside a `ClientPool` is the outside here: it says which pools
are healthy and how each attempt ends. `Job` records what happened to a task and
is read by no step.

Indices and versions wrap as `usize` and `u64` do in a release build. `retry` is a `Nat`: it counts
failures of one task and does not pass `retry_limit + 1`.
-/

namespace OccamsRpc

/-! ## The task -/

/-- A task with what its retries need. -/
structure FailoverTask (T : Type) where
  last_index : Nat
  cluster_ver : Nat
  inner : T
  retry : Nat
  should_retry : Bool

section
variable {C T : Type} [ClientTaskCommon T]

instance : ClientTaskCommon (FailoverTask T) where
  seq t := ClientTaskCommon.seq t.inner
  set_seq t n := { t with inner := ClientTaskCommon.set_seq t.inner n }
  seq_set_seq t n := ClientTaskCommon.seq_set_seq t.inner n

variable [ClientTask C T]

namespace FailoverTask

/-- An error of the service is no reason to try again. -/
def set_custom_error (codec : C) (t : FailoverTask T) (e : EncodedErr) : FailoverTask T :=
  { t with should_retry := false, inner := ClientTask.set_custom_error codec t.inner e }

variable (C) in
/-- The errors before `Method` are tried again. -/
def set_rpc_error (t : FailoverTask T) (e : RpcIntErr) : FailoverTask T :=
  let t := if e < .Method then { t with should_retry := true, retry := t.retry + 1 }
    else { t with should_retry := false }
  { t with inner := ClientTask.set_rpc_error C t.inner e }

instance : ClientTask C (FailoverTask T) where
  get_action t := ClientTask.get_action C t.inner
  encode_req codec t := ClientTask.encode_req codec t.inner
  get_req_blob t := ClientTask.get_req_blob C t.inner
  decode_resp codec t buf :=
    let (ok, inner) := ClientTask.decode_resp codec t.inner buf
    (ok, { t with inner := inner })
  reserve_resp_blob t size :=
    let (inner, len) := ClientTask.reserve_resp_blob C t.inner size
    ({ t with inner := inner }, len)
  fill_resp_blob t bs := { t with inner := ClientTask.fill_resp_blob C t.inner bs }
  set_custom_error := set_custom_error
  set_rpc_error := set_rpc_error C
  set_ok t := { t with inner := ClientTask.set_ok C t.inner }

end FailoverTask

/-- What a `ClientPool` does to a task before its result is known. -/
inductive Handling
  | set_seq (n : UInt64)
  | decode_resp (buf : Bytes)
  | reserve_resp_blob (size : Int32)
  | fill_resp_blob (bs : Bytes)

/-- One thing that a connection does to the task it has. -/
def Handling.apply (codec : C) (t : T) : Handling → T
  | .set_seq n => ClientTaskCommon.set_seq t n
  | .decode_resp buf => (ClientTask.decode_resp codec t buf).2
  | .reserve_resp_blob size => (ClientTask.reserve_resp_blob C t size).1
  | .fill_resp_blob bs => ClientTask.fill_resp_blob C t bs

/-- The result that an attempt ends with. -/
inductive Ending
  | ok
  | custom (e : EncodedErr)
  | rpc (e : RpcIntErr)

def Ending.set (codec : C) (t : T) : Ending → T
  | .ok => ClientTask.set_ok C t
  | .custom e => ClientTask.set_custom_error codec t e
  | .rpc e => ClientTask.set_rpc_error C t e

/-- What one pool does with a task, up to its result. -/
structure Attempt where
  work : List Handling
  ending : Ending

/-- The task when its result has been set. -/
def Attempt.settle (codec : C) (t : T) (a : Attempt) : T :=
  a.ending.set codec (a.work.foldl (Handling.apply codec) t)

/-- It failed with an error below `RpcIntErr::Method`. -/
def Attempt.retriable (a : Attempt) : Bool :=
  match a.ending with
  | .rpc e => decide (e < .Method)
  | _ => false

end

/-! ## The configuration -/

/-- One `ClientPool`: two of the same address may follow each other. -/
structure Pool where
  addr : String
  id : Nat
  deriving DecidableEq

/-- The pools at the addresses of one `update_addrs`. -/
structure ClusterConfig where
  pools : List Pool
  ver : Nat

/-- `usize` arithmetic that wraps. -/
def usize (n : Nat) : Nat := n % 2 ^ 64

def u64 (n : Nat) : Nat := n % 2 ^ 64

/-- The pool selected, with its index, and the counter after. -/
def ClusterConfig.select (self : ClusterConfig) (is_healthy : Nat → Bool) (round_robin : Bool)
    (rr_counter : Nat) (last_index : Option Nat) : Option (Nat × Pool) × Nat :=
  let l := self.pools.length
  if l = 0 then (none, rr_counter)
  else
    let (seed, rr_counter) := match last_index with
      | some index => (usize (index + 1), rr_counter)
      | none => if round_robin then (rr_counter, usize (rr_counter + 1)) else (0, rr_counter)
    -- `seed..seed + l`, which is empty when the end has wrapped
    let hit := (List.range' seed (usize (seed + l) - seed)).findSome? fun i =>
      self.pools[i % l]?.bind fun pool => if is_healthy pool.id then some (i, pool) else none
    (hit, rr_counter)

/-- The loop of `update_addrs`: an address keeps its pool, or gets a new one. -/
def reuse_pools (next_id : Nat) : (AList fun _ : String => Pool) → List String → List Pool × Nat
  | _, [] => ([], next_id)
  | old_pools_map, addr :: addrs =>
    match old_pools_map.lookup addr with
    | some pool =>
      let (pools, n) := reuse_pools next_id (old_pools_map.erase addr) addrs
      (pool :: pools, n)
    | none =>
      let (pools, n) := reuse_pools (next_id + 1) old_pools_map addrs
      (⟨addr, next_id⟩ :: pools, n)

/-- What `select` is called with, each pool's health being what it reads there. -/
structure Search where
  cluster : ClusterConfig
  is_healthy : Nat → Bool
  round_robin : Bool
  rr_counter : Nat
  last_index : Option Nat

def Search.select (q : Search) : Option (Nat × Pool) × Nat :=
  q.cluster.select q.is_healthy q.round_robin q.rr_counter q.last_index

/-- The pool that a search came to. -/
def found (q : Option Search) : Option Nat := q.bind fun q => q.select.1.map fun r => r.2.id

theorem found_some {q : Search} {index : Nat} {pool : Pool} {rr_counter : Nat}
    (h : q.select = (some (index, pool), rr_counter)) : found (some q) = some pool.id := by
  rw [found, Option.bind_some, h]
  rfl

theorem found_none {q : Search} {rr_counter : Nat} (h : q.select = (none, rr_counter)) :
    found (some q) = none := by
  rw [found, Option.bind_some, h]
  rfl

/-- Where the scan of `select` starts. -/
def Search.seed (q : Search) : Nat :=
  match q.last_index with
  | some index => usize (index + 1)
  | none => if q.round_robin then q.rr_counter else 0

theorem Search.select_fst (q : Search) :
    q.select.1 = (List.range' q.seed (usize (q.seed + q.cluster.pools.length) - q.seed)).findSome? fun i =>
      q.cluster.pools[i % q.cluster.pools.length]?.bind fun pool =>
        if q.is_healthy pool.id then some (i, pool) else none := by
  unfold Search.select ClusterConfig.select
  by_cases hl : q.cluster.pools.length = 0
  · have hz : usize q.seed - q.seed = 0 := Nat.sub_eq_zero_of_le (Nat.mod_le _ _)
    rw [if_pos hl, hl, Nat.add_zero, hz]
    rfl
  · rw [if_neg hl]
    unfold Search.seed
    cases q.last_index with
    | some index => rfl
    | none => cases q.round_robin <;> rfl

/-- Only a healthy pool of the configuration is selected. -/
theorem Search.select_some {q : Search} {index : Nat} {pool : Pool}
    (h : q.select.1 = some (index, pool)) :
    pool ∈ q.cluster.pools ∧ q.is_healthy pool.id = true := by
  rw [Search.select_fst] at h
  obtain ⟨i, -, hi⟩ := List.exists_of_findSome?_eq_some h
  obtain ⟨p, hp, hpick⟩ := Option.bind_eq_some_iff.1 hi
  split at hpick
  · cases hpick
    exact ⟨List.mem_of_getElem? hp, ‹_›⟩
  · cases hpick

/-- `l` numbers in a row meet every remainder. -/
theorem exists_mod_eq (seed : Nat) {l m : Nat} (hm : m < l) :
    ∃ i, seed ≤ i ∧ i < seed + l ∧ i % l = m := by
  have hr : seed % l < l := Nat.mod_lt _ (by omega)
  have hd : l * (seed / l) + seed % l = seed := Nat.div_add_mod seed l
  by_cases hle : seed % l ≤ m
  · refine ⟨l * (seed / l) + m, by omega, by omega, ?_⟩
    rw [Nat.mul_add_mod, Nat.mod_eq_of_lt hm]
  · refine ⟨l * (seed / l + 1) + m, by rw [Nat.mul_add]; omega, by rw [Nat.mul_add]; omega, ?_⟩
    rw [Nat.mul_add_mod, Nat.mod_eq_of_lt hm]

/-- As long as the scan does not reach the end of `usize`, some pool is selected
exactly when some pool is healthy. -/
theorem Search.select_isSome_iff {q : Search} (hq : q.seed + q.cluster.pools.length < 2 ^ 64) :
    q.select.1.isSome = true ↔ ∃ pool ∈ q.cluster.pools, q.is_healthy pool.id = true := by
  constructor
  · intro h
    obtain ⟨⟨index, pool⟩, hsel⟩ := Option.isSome_iff_exists.1 h
    exact ⟨pool, Search.select_some hsel⟩
  · rintro ⟨pool, hmem, hok⟩
    obtain ⟨m, hm, hget⟩ := List.mem_iff_getElem.1 hmem
    obtain ⟨i, hlo, hhi, hmod⟩ := exists_mod_eq q.seed hm
    rw [Search.select_fst, List.findSome?_isSome_iff]
    refine ⟨i, ?_, ?_⟩
    · unfold usize
      rw [List.mem_range'_1, Nat.mod_eq_of_lt hq]
      omega
    · rw [hmod, List.getElem?_eq_getElem hm, hget, Option.bind_some, if_pos hok]
      rfl

/-! ## The pool and its retry worker -/

/-- What happened to a task. -/
structure Job (T : Type) where
  /-- The task as it was given. -/
  task : T
  /-- The calls of `select` for it, `none` when there was no configuration to call it on. -/
  searches : List (Option Search) := []
  /-- The pools it was submitted to. -/
  submitted : List Nat := []
  attempts : List Attempt := []
  /-- The inner tasks on which `done` was called. -/
  done : List T := []

namespace Job

variable {T : Type}

def search (j : Job T) (q : Option Search) : Job T := { j with searches := j.searches ++ [q] }

def submit (j : Job T) (pool : Pool) : Job T := { j with submitted := j.submitted ++ [pool.id] }

def attempt (j : Job T) (a : Attempt) : Job T := { j with attempts := j.attempts ++ [a] }

def finish (j : Job T) (t : T) : Job T := { j with done := j.done ++ [t] }

end Job

/-- A `FailoverPool`, with the tasks that it has been given and the tasks under way. -/
structure FailoverPool (T : Type) where
  round_robin : Bool
  retry_limit : Nat
  pools : Option ClusterConfig
  ver : Nat
  rr_counter : Nat
  next_id : Nat
  is_healthy : Nat → Bool
  /-- The `FailoverPool` has not been dropped. -/
  handle : Bool
  /-- The `FailoverPoolInner` has not been dropped. -/
  inner : Bool
  /-- The retry worker has not ended, so that its channel is open. -/
  worker : Bool
  /-- The retry channel, the oldest first. -/
  retry : List (Nat × FailoverTask T)
  /-- Submitted to a pool, and the attempt has not ended. -/
  in_flight : List (Nat × FailoverTask T)
  jobs : List (Job T)

namespace FailoverPool

variable {C T : Type} [ClientTaskCommon T] [ClientTask C T]

def new (addrs : List String) (round_robin : Bool) (retry_limit : Nat) : FailoverPool T where
  round_robin := round_robin
  retry_limit := retry_limit
  pools := some ⟨(reuse_pools 0 ∅ addrs).1, 0⟩
  ver := 1
  rr_counter := 0
  next_id := (reuse_pools 0 ∅ addrs).2
  is_healthy _ := true
  handle := true
  inner := true
  worker := true
  retry := []
  in_flight := []
  jobs := []

/-- A call of `select` now. -/
def search (s : FailoverPool T) (cluster : ClusterConfig) (last_index : Option Nat) : Search :=
  ⟨cluster, s.is_healthy, s.round_robin, s.rr_counter, last_index⟩

def note (s : FailoverPool T) (id : Nat) (f : Job T → Job T) : FailoverPool T :=
  { s with jobs := s.jobs.modify id f }

variable (C) in
/-- A task for which no pool is healthy fails at once. -/
def send_req (s : FailoverPool T) (task : T) : FailoverPool T :=
  let id := s.jobs.length
  let job : Job T := { task := task }
  let unreachable := ClientTask.set_rpc_error C task .Unreachable
  match s.pools with
  | some cluster =>
    let q := s.search cluster none
    match q.select with
    | (some (index, pool), rr_counter) =>
      let failover_task := ⟨index, cluster.ver, task, 0, false⟩
      { s with
        rr_counter := rr_counter
        in_flight := s.in_flight ++ [(id, failover_task)]
        jobs := s.jobs ++ [(job.search q).submit pool] }
    | (none, rr_counter) =>
      { s with rr_counter := rr_counter, jobs := s.jobs ++ [(job.search q).finish unreachable] }
  | none => { s with jobs := s.jobs ++ [(job.search none).finish unreachable] }

variable (C) in
/-- The pool's blocking sender fills the same channel. -/
def send_req_blocking (s : FailoverPool T) (task : T) : FailoverPool T := s.send_req C task

/-- `error_handle` of `FailoverPoolInner` as `ClientFacts`. -/
def error_handle (s : FailoverPool T) (id : Nat) (task : FailoverTask T) : FailoverPool T :=
  if task.should_retry ∧ task.retry ≤ s.retry_limit then
    if s.worker then { s with retry := s.retry ++ [(id, task)] }
    else s.note id fun j => (j.search none).finish task.inner
  else s.note id fun j => j.finish task.inner

/-- An attempt ends: with `done` when it went well, with `error_handle` when not. -/
def resolve (codec : C) (s : FailoverPool T) (i : Nat) (a : Attempt) : Option (FailoverPool T) :=
  match s.in_flight[i]? with
  | none => none
  | some (id, task) =>
    let task := a.settle codec task
    let s := { s with in_flight := s.in_flight.eraseIdx i }.note id fun j => j.attempt a
    match a.ending with
    | .ok => some (s.note id fun j => j.finish task.inner)
    | _ => some (s.error_handle id task)

/-- One round of `retry_worker`. -/
def retry_worker (s : FailoverPool T) : Option (FailoverPool T) :=
  match s.worker, s.retry with
  | true, (id, task) :: retry =>
    let s := { s with retry := retry }
    -- the weak upgrade, and the configuration, which is gone with it
    match if s.inner then s.pools else none with
    | some cluster =>
      let last_index := if cluster.ver = task.cluster_ver then some task.last_index else none
      let q := s.search cluster last_index
      match q.select with
      | (some (index, pool), rr_counter) =>
        let task := { task with cluster_ver := cluster.ver, last_index := index }
        some ({ s with rr_counter := rr_counter, in_flight := s.in_flight ++ [(id, task)] }.note id fun j =>
          (j.search q).submit pool)
      | (none, rr_counter) =>
        some ({ s with rr_counter := rr_counter }.note id fun j => (j.search q).finish task.inner)
    | none => some (s.note id fun j => (j.search none).finish task.inner)
  | _, _ => none

/-- A pool whose address stays is kept. -/
def update_addrs (s : FailoverPool T) (addrs : List String) : FailoverPool T :=
  let old_pools := (s.pools.map ClusterConfig.pools).getD []
  let old_pools_map := old_pools.foldl (fun m pool => m.insert pool.addr pool) ∅
  let (new_pools, next_id) := reuse_pools s.next_id old_pools_map addrs
  { s with
    pools := some ⟨new_pools, u64 (s.ver + 1)⟩
    ver := u64 (s.ver + 1)
    next_id := next_id
    is_healthy := fun id => s.is_healthy id || decide (s.next_id ≤ id) }

/-- The calls of the user, the ends of attempts, and the retry worker. -/
inductive Act (T : Type)
  | send_req (task : T)
  | send_req_blocking (task : T)
  | resolve (i : Nat) (a : Attempt)
  | retry_worker
  | update_addrs (addrs : List String)
  /-- A pool becomes healthy, or ceases to be. -/
  | set_healthy (id : Nat) (ok : Bool)
  /-- The `FailoverPool` is dropped. -/
  | drop
  /-- The last reference to the `FailoverPoolInner` is dropped. -/
  | drop_inner
  /-- The retry worker ends, its channel being empty. -/
  | worker_exit

/-- Any interleaving of them. -/
def step (codec : C) (s : FailoverPool T) : Act T → Option (FailoverPool T)
  | .send_req task => if s.handle then some (s.send_req C task) else none
  | .send_req_blocking task => if s.handle then some (s.send_req_blocking C task) else none
  | .resolve i a => s.resolve codec i a
  | .retry_worker => s.retry_worker
  | .update_addrs addrs => if s.handle then some (s.update_addrs addrs) else none
  | .set_healthy id ok => some { s with is_healthy := Function.update s.is_healthy id ok }
  | .drop => if s.handle then some { s with handle := false, pools := none } else none
  | .drop_inner => if s.handle then none else some { s with inner := false }
  | .worker_exit => if s.retry = [] then some { s with worker := false } else none

/-! ## What a step can do -/

section
variable {codec : C} {s s' : FailoverPool T}

variable (C) in
theorem send_req_cases (s : FailoverPool T) (task : T) :
    (∃ cluster index pool rr_counter, s.pools = some cluster ∧
      (s.search cluster none).select = (some (index, pool), rr_counter) ∧
      s.send_req C task = { s with
        rr_counter := rr_counter
        in_flight := s.in_flight ++ [(s.jobs.length, ⟨index, cluster.ver, task, 0, false⟩)]
        jobs := s.jobs ++ [({ task := task : Job T }.search (s.search cluster none)).submit pool] }) ∨
    ∃ q rr_counter, found q = none ∧ (∀ q', q = some q' → s.pools = some q'.cluster) ∧
      s.send_req C task = { s with
      rr_counter := rr_counter
      jobs := s.jobs ++ [({ task := task : Job T }.search q).finish
        (ClientTask.set_rpc_error C task .Unreachable)] } := by
  cases hp : s.pools with
  | none => exact .inr ⟨none, s.rr_counter, rfl, nofun, by simp only [send_req, hp]⟩
  | some cluster =>
    rcases hq : (s.search cluster none).select with ⟨_ | ⟨index, pool⟩, rr_counter⟩
    · refine .inr ⟨some (s.search cluster none), rr_counter, found_none hq, ?_,
      by simp only [send_req, hp, hq]⟩
      rintro _ ⟨⟩
      rfl
    · exact .inl ⟨cluster, index, pool, rr_counter, rfl, hq, by simp only [send_req, hp, hq]⟩

theorem resolve_cases {i : Nat} {a : Attempt} (h : s.resolve codec i a = some s') :
    ∃ n ft, s.in_flight[i]? = some (n, ft) ∧
      (a.ending = .ok ∧ s' = { s with in_flight := s.in_flight.eraseIdx i }.note n (fun j =>
          (j.attempt a).finish (a.settle codec ft).inner) ∨
        a.ending ≠ .ok ∧ s' = ({ s with in_flight := s.in_flight.eraseIdx i }.note n fun j =>
          j.attempt a).error_handle n (a.settle codec ft)) := by
  unfold resolve at h
  cases hi : s.in_flight[i]? with
  | none =>
    rw [hi] at h
    cases h
  | some p =>
    obtain ⟨n, ft⟩ := p
    simp only [hi] at h
    refine ⟨n, ft, rfl, ?_⟩
    split at h
    · refine .inl ⟨‹_›, ?_⟩
      cases h
      unfold note
      rw [List.modify_modify_eq]
      rfl
    · exact .inr ⟨‹_›, (Option.some.inj h).symm⟩

omit [ClientTaskCommon T] in
theorem retry_worker_cases (h : s.retry_worker = some s') :
    ∃ n ft rest, s.worker = true ∧ s.retry = (n, ft) :: rest ∧
      ((∃ cluster q index pool rr_counter, s.pools = some cluster ∧
          q = s.search cluster (if cluster.ver = ft.cluster_ver then some ft.last_index else none) ∧
          q.select = (some (index, pool), rr_counter) ∧
          s' = { s with
            retry := rest
            rr_counter := rr_counter
            in_flight := s.in_flight ++
              [(n, { ft with cluster_ver := cluster.ver, last_index := index })] }.note n
              (fun j => (j.search q).submit pool)) ∨
        ∃ q rr_counter, found q = none ∧
          (∀ q', q = some q' → s.pools = some q'.cluster ∧
            q'.last_index = if q'.cluster.ver = ft.cluster_ver then some ft.last_index else none) ∧
          s' = { s with retry := rest, rr_counter := rr_counter }.note n
            (fun j => (j.search q).finish ft.inner)) := by
  unfold retry_worker at h
  split at h
  · rename_i n ft rest hw hr
    refine ⟨n, ft, rest, hw, hr, ?_⟩
    dsimp only at h
    split at h
    · rename_i cluster hc
      have hp : s.pools = some cluster := by
        split at hc
        · exact hc
        · cases hc
      split at h
      · rename_i index pool rr_counter hq
        exact .inl ⟨cluster, _, index, pool, rr_counter, hp, rfl, hq, (Option.some.inj h).symm⟩
      · rename_i rr_counter hq
        refine .inr ⟨_, rr_counter, found_none hq, ?_, (Option.some.inj h).symm⟩
        rintro _ ⟨⟩
        exact ⟨hp, rfl⟩
    · exact .inr ⟨none, s.rr_counter, rfl, nofun, (Option.some.inj h).symm⟩
  · cases h

end

end FailoverPool

end OccamsRpc
