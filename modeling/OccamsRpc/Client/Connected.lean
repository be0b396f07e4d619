import OccamsRpc.Client.Monitor
import OccamsRpc.Client.Failover
/-!
# The count of connected workers

`run_worker` adds one to `connected_worker_count` before `_run_worker`, and after it
adds one again, where it would have to take one away. Nothing in the pool reads the
count, so it stands beside the pool here.
-/
open Lib

namespace OccamsRpc

namespace ClientPool

variable {K T A D : Type} {ops : StreamOps K T A D} {s s' : ClientPool K T}

/-- The workers between the start and the end of `run_worker`. -/
def serving (s : ClientPool K T) : Nat := s.workers.countP fun w => w.pc.serves

/-- One of them. -/
def servesAt (s : ClientPool K T) (i : Nat) : Bool := s.workers[i]?.any fun w => w.pc.serves

theorem serving_spawned {spawned : List (Worker K T)} (h : ∀ v ∈ spawned, ∃ id, v = .new id) :
    (spawned.countP fun w => w.pc.serves) = 0 := by
  refine List.countP_eq_zero.2 fun v hv => ?_
  obtain ⟨id, rfl⟩ := h v hv
  exact Bool.false_ne_true

/-- A step of a worker changes their number by that worker. -/
theorem serving_work {i : Nat} {ev : WorkerEv A D} (h : step ops s (.work i ev) = some s') :
    s'.serving + (if s.servesAt i then 1 else 0) = s.serving + if s'.servesAt i then 1 else 0 := by
  cases step_cases h with
  | @work _ _ w inner w' spawned hw hm =>
    have hcount := countP_set_append hw w' spawned fun w => w.pc.serves
    rw [serving_spawned fun v hv => ⟨0, hm.spawned_new v hv⟩] at hcount
    have hlt := (List.getElem?_eq_some_iff.1 hw).1
    have hat : s.servesAt i = w.pc.serves := by rw [servesAt, hw, Option.any_some]
    have hat' : servesAt ⟨inner, s.workers.set i w' ++ spawned⟩ i = w'.pc.serves := by
      rw [servesAt, List.getElem?_append_left (by rwa [List.length_set]),
        List.getElem?_set_self hlt, Option.any_some]
    rw [hat, hat']
    exact hcount
  | handle _ _ _ _ _ ha _ _ => exact absurd rfl (ha i ev)

theorem serving_handle {a : Act T A D} (ha : ∀ i ev, a ≠ .work i ev) (h : step ops s a = some s') :
    s'.serving = s.serving := by
  cases step_cases h with
  | work _ _ => exact absurd rfl (ha _ _)
  | handle rx failed count handles spawned _ hs _ =>
    show (s.workers ++ spawned).countP _ = _
    rw [List.countP_append, serving_spawned hs]
    rfl

end ClientPool

/-- A pool with its count. -/
structure CountedPool (K T : Type) where
  pool : ClientPool K T
  connected_worker_count : Nat
  /-- How often a worker has come to the end of `run_worker`; no step reads it. -/
  left : Nat

namespace CountedPool

variable {K T A D : Type}

def new (thresholds channel_size : Nat) : CountedPool K T := ⟨.new thresholds channel_size, 0, 0⟩

def get_healthy_workers (s : CountedPool K T) : Nat := s.connected_worker_count

/-- What `run_worker` does around `_run_worker`, to which the worker `i` comes, or
which it leaves, by the step to `pool`. -/
def run_worker (s : CountedPool K T) (i : Nat) (pool : ClientPool K T) : CountedPool K T :=
  match s.pool.servesAt i, pool.servesAt i with
  | false, true => ⟨pool, usize (s.connected_worker_count + 1), s.left⟩
  | true, false => ⟨pool, usize (s.connected_worker_count + 1), s.left + 1⟩
  | _, _ => ⟨pool, s.connected_worker_count, s.left⟩

/-- A step of the pool that also counts the connected workers. -/
def step (ops : StreamOps K T A D) (s : CountedPool K T) (a : ClientPool.Act T A D) :
    Option (CountedPool K T) :=
  (s.pool.step ops a).map fun pool =>
    match a with
    | .work i _ => s.run_worker i pool
    | _ => ⟨pool, s.connected_worker_count, s.left⟩

/-- Both ends of `run_worker` have been counted. -/
def Tallies (s : CountedPool K T) : Prop :=
  s.connected_worker_count = usize (s.pool.serving + 2 * s.left)

section
variable {ops : StreamOps K T A D} {s s' : CountedPool K T} {a : ClientPool.Act T A D}

theorem usize_succ (n : Nat) : usize (usize n + 1) = usize (n + 1) := Nat.mod_add_mod n (2 ^ 64) 1

theorem Tallies.run_worker (h : s.Tallies) {i : Nat} {pool : ClientPool K T}
    (hserving : pool.serving + (if s.pool.servesAt i then 1 else 0) =
      s.pool.serving + if pool.servesAt i then 1 else 0) : (s.run_worker i pool).Tallies := by
  have h : s.connected_worker_count = usize (s.pool.serving + 2 * s.left) := h
  unfold CountedPool.run_worker
  split
  case h_1 hbefore hafter =>
    rw [hbefore, hafter] at hserving
    have hnext : s.pool.serving + 2 * s.left + 1 = pool.serving + 2 * s.left := by
      simp only [Bool.false_eq_true, if_true, if_false] at hserving
      omega
    show usize (s.connected_worker_count + 1) = usize (pool.serving + 2 * s.left)
    rw [h, usize_succ, hnext]
  case h_2 hbefore hafter =>
    rw [hbefore, hafter] at hserving
    have hnext : s.pool.serving + 2 * s.left + 1 = pool.serving + 2 * (s.left + 1) := by
      simp only [Bool.false_eq_true, if_true, if_false] at hserving
      omega
    show usize (s.connected_worker_count + 1) = usize (pool.serving + 2 * (s.left + 1))
    rw [h, usize_succ, hnext]
  case h_3 henter hleave =>
    have hsame : s.pool.servesAt i = pool.servesAt i := by
      cases hb : s.pool.servesAt i <;> cases hp : pool.servesAt i
      · rfl
      · exact (henter hb hp).elim
      · exact (hleave hb hp).elim
      · rfl
    rw [hsame] at hserving
    show s.connected_worker_count = usize (pool.serving + 2 * s.left)
    rw [Nat.add_right_cancel hserving]
    exact h

theorem Tallies.step (h : s.Tallies) (hstep : step ops s a = some s') : s'.Tallies := by
  obtain ⟨pool, hpool, rfl⟩ := Option.map_eq_some_iff.1 hstep
  cases a with
  | work i ev => exact h.run_worker (ClientPool.serving_work hpool)
  | send_req t | clone | drop | spawn | drop_inner =>
    show s.connected_worker_count = usize (pool.serving + 2 * s.left)
    rw [ClientPool.serving_handle (by rintro i ev ⟨⟩) hpool]
    exact h

end

/-- In every run the count is the number of workers between the start and the end of
`run_worker` exactly when no worker has come to that end, or so many have that what
they added has wrapped. -/
theorem healthy_workers_iff (ops : StreamOps K T A D) (thresholds channel_size : Nat)
    {tr : List (CountedPool K T × ClientPool.Act T A D)} {s : CountedPool K T}
    (hrun : Run (step ops) (new thresholds channel_size) tr s) :
    s.get_healthy_workers = s.pool.serving ↔ s.pool.serving < 2 ^ 64 ∧ 2 ^ 63 ∣ s.left := by
  have h0 : (new thresholds channel_size : CountedPool K T).Tallies := rfl
  have h : s.connected_worker_count = usize (s.pool.serving + 2 * s.left) :=
    hrun.inv Tallies h0 fun _ _ _ hi hstep => hi.step hstep
  rw [get_healthy_workers, h, usize]
  omega

/-- A worker is spawned and enters `run_worker`. -/
def enters : List (ClientPool.Act Unit Unit Unit) :=
  [.spawn, .work 1 .next, .work 1 (.connected ())]

theorem healthy_workers_iff_enters :
    ∃ tr s, Run (step ClientPool.sampleOps) (new 0 1) tr s ∧ tr.map Prod.snd = enters ∧
      s.pool.serving = 1 ∧
      s.get_healthy_workers = s.pool.serving := by
  have hfollow : ∃ r, follow (step ClientPool.sampleOps) (new 0 1) enters = some r ∧
      r.1.map Prod.snd = enters ∧
      r.2.pool.serving = 1 ∧ r.2.left = 0 := ⟨_, rfl, rfl, rfl, rfl⟩
  obtain ⟨⟨tr, s⟩, hfollow, hacts, hserving, hleft⟩ := hfollow
  have hrun := Run.of_follow hfollow
  have hserving : s.pool.serving = 1 := hserving
  have hleft : s.left = 0 := hleft
  refine ⟨tr, s, hrun, hacts, hserving, (healthy_workers_iff ClientPool.sampleOps 0 1 hrun).2 ⟨?_, ?_⟩⟩
  · rw [hserving]
    decide
  · rw [hleft]
    exact Nat.dvd_zero _

/-- Its send fails, and it leaves. -/
def entersAndLeaves : List (ClientPool.Act Unit Unit Unit) :=
  enters ++ [.send_req (), .work 1 .next, .work 1 (.done false)]

theorem healthy_workers_none_inside :
    ∃ tr s, Run (step ClientPool.sampleOps) (new 0 1) tr s ∧ tr.map Prod.snd = entersAndLeaves ∧
      s.pool.serving = 0 ∧
      s.get_healthy_workers = 2 := by
  have hfollow : ∃ r, follow (step ClientPool.sampleOps) (new 0 1) entersAndLeaves = some r ∧
      r.1.map Prod.snd = entersAndLeaves ∧ r.2.pool.serving = 0 ∧
      r.2.get_healthy_workers = 2 := ⟨_, rfl, rfl, rfl, rfl⟩
  obtain ⟨⟨tr, s⟩, hfollow, hrest⟩ := hfollow
  exact ⟨tr, s, Run.of_follow hfollow, hrest⟩

end CountedPool

end OccamsRpc
