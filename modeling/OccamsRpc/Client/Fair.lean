import OccamsRpc.Client.Atomic
import OccamsRpc.Tcp.Request
/-!
# Round robin under concurrency

The counter gives every call a number of its own, and the numbers of all calls
are in a row, whatever the interleaving: the call drawn `n`-th starts its scan at
the `n`-th number. When all pools are healthy a call takes the pool it starts at,
unless the end of its range wraps: then it takes none.
-/
open Lib

namespace OccamsRpc

/-- A scan from `seed` stops at the place `k` of `l` healthy pools. -/
def Deals (l k seed : Nat) : Prop := seed % l = k ∧ seed + l < 2 ^ 64

instance (l k : Nat) : DecidablePred (Deals l k) := fun _ => inferInstanceAs (Decidable (_ ∧ _))

namespace SendReqPc

/-- The call has its number. -/
def drew : SendReqPc → Bool
  | .seeded _ _ | .returned _ => true
  | _ => false

/-- It has selected the pool at the place `k`. -/
def picked (l k : Nat) : SendReqPc → Bool
  | .returned (some (i, _)) => i % l == k
  | _ => false

/-- It has selected that pool, or will. -/
def due (l k : Nat) : SendReqPc → Bool
  | .seeded _ seed => decide (Deals l k seed)
  | .returned (some (i, _)) => i % l == k
  | _ => false

/-- What the call has of the configuration. -/
def Of (cluster : ClusterConfig) : SendReqPc → Prop
  | .called | .returned none => True
  | .loaded c => c = some cluster
  | .seeded c seed => c = cluster ∧ seed < 2 ^ 64
  | .returned (some (i, pool)) => cluster.pools[i % cluster.pools.length]? = some pool

theorem picked_eq_due {l k : Nat} {pc : SendReqPc} (h : pc.isReturned = true) :
    pc.picked l k = pc.due l k := by
  cases pc with
  | returned r => cases r <;> rfl
  | called | loaded c | seeded c seed => cases h

theorem drew_of_returned {pc : SendReqPc} (h : pc.isReturned = true) : pc.drew = true := by
  cases pc with
  | returned r => rfl
  | called | loaded c | seeded c seed => cases h

end SendReqPc

namespace AtomicPool

variable {C T : Type} [ClientTaskCommon T] [ClientTask C T]

/-- Only first attempts, with all pools healthy. -/
def firstAttempts (cluster : ClusterConfig) (_ : AtomicPool T) : Act T → Prop
  | .send _ | .send_load _ | .send_draw _ | .resolve _ _ => True
  | .send_scan _ is_healthy => ∀ pool ∈ cluster.pools, is_healthy pool.id = true
  | _ => False

/-- What the calls have of the counter, which was `c` before them. -/
structure Dealt (cluster : ClusterConfig) (c : Nat) (s : AtomicPool T) : Prop where
  pools : s.pools = some cluster
  round_robin : s.round_robin = true
  rr_counter : s.rr_counter = c + s.sends.countP fun x => x.pc.drew
  calls : ∀ x ∈ s.sends, x.pc.Of cluster
  due : ∀ k, (s.sends.countP fun x => x.pc.due cluster.pools.length k) + c.count
    (Deals cluster.pools.length k) =
    s.rr_counter.count (Deals cluster.pools.length k)

section
variable {codec : C} {cluster : ClusterConfig} {c : Nat} {s s' : AtomicPool T}

omit [ClientTaskCommon T] in
/-- A call goes on, and keeps the number it has. -/
theorem Dealt.move (h : Dealt cluster c s) {i : Nat} {task : T} {pc pc' : SendReqPc}
    (hi : s.sends[i]? = some ⟨task, pc⟩) (hof : pc'.Of cluster) (hdrew : pc'.drew = pc.drew)
    (hdue : ∀ k, pc'.due cluster.pools.length k = pc.due cluster.pools.length k) :
    Dealt cluster c (s.setSend i task pc') where
  pools := h.pools
  round_robin := h.round_robin
  rr_counter := by
    have hcount := countP_set hi ⟨task, pc'⟩ fun x => x.pc.drew
    simp only [hdrew] at hcount
    exact h.rr_counter.trans (congrArg (c + ·) (Nat.add_right_cancel hcount).symm)
  calls := forall_mem_set h.calls hof
  due k := by
    have hcount := countP_set hi ⟨task, pc'⟩ fun x => x.pc.due cluster.pools.length k
    simp only [hdue] at hcount
    exact (congrArg (· + _) (Nat.add_right_cancel hcount)).trans (h.due k)

omit [ClientTaskCommon T] in
/-- A call draws the next number. -/
theorem Dealt.draw (h : Dealt cluster c s) {i : Nat} {task : T}
    (hi : s.sends[i]? = some ⟨task, .loaded (some cluster)⟩) (hfew : c + s.sends.length < 2 ^ 64) :
    Dealt cluster c ({ s with rr_counter := usize (s.rr_counter + 1) }.setSend i task
      (.seeded cluster s.rr_counter)) := by
  have hdrew : (s.sends.set i ⟨task, .seeded cluster s.rr_counter⟩).countP (fun x => x.pc.drew) =
      (s.sends.countP fun x => x.pc.drew) + 1 := countP_set hi _ fun x => x.pc.drew
  -- every call has drawn at most once
  have hle : (s.sends.set i ⟨task, .seeded cluster s.rr_counter⟩).countP (fun x => x.pc.drew) ≤
      s.sends.length :=
    Nat.le_trans List.countP_le_length (Nat.le_of_eq List.length_set)
  have hrr := h.rr_counter
  have hwrap : usize (s.rr_counter + 1) = s.rr_counter + 1 := Nat.mod_eq_of_lt (by omega)
  rw [hwrap]
  refine ⟨h.pools, h.round_robin, ?_, forall_mem_set h.calls ⟨rfl, by omega⟩, fun k => ?_⟩
  · show s.rr_counter + 1 = c + (s.sends.set i ⟨task, .seeded cluster s.rr_counter⟩).countP fun x => x.pc.drew
    omega
  · have hdue : (s.sends.set i ⟨task, .seeded cluster s.rr_counter⟩).countP
        (fun x => x.pc.due cluster.pools.length k) =
        (s.sends.countP fun x => x.pc.due cluster.pools.length k) +
          if decide (Deals cluster.pools.length k s.rr_counter) = true then 1 else 0 :=
      countP_set hi _ fun x => x.pc.due cluster.pools.length k
    simp only [decide_eq_true_eq] at hdue
    show (s.sends.set i ⟨task, .seeded cluster s.rr_counter⟩).countP
      (fun x => x.pc.due cluster.pools.length k) + _ =
      (s.rr_counter + 1).count (Deals cluster.pools.length k)
    rw [Nat.count_succ, hdue, ← h.due k]
    omega

omit [ClientTaskCommon T] in
/-- A call scans, and takes the pool it is due. -/
theorem Dealt.scan (h : Dealt cluster c s) (hl : 0 < cluster.pools.length)
    (hl' : cluster.pools.length < 2 ^ 64) {is_healthy : Nat → Bool}
    (hall : ∀ pool ∈ cluster.pools, is_healthy pool.id = true) {i : Nat} {task : T} {seed : Nat}
    (hi : s.sends[i]? = some ⟨task, .seeded cluster seed⟩) :
    Dealt cluster c (s.setSend i task (.returned (cluster.scan is_healthy seed))) := by
  obtain ⟨-, hseed⟩ := h.calls _ (List.mem_of_getElem? hi)
  rcases Nat.lt_or_ge (seed + cluster.pools.length) (2 ^ 64) with hlt | hge
  · obtain ⟨pool, hscan, hget⟩ := ClusterConfig.scan_healthy hlt hl hall
    rw [hscan]
    refine h.move hi hget rfl fun k => ?_
    simp only [SendReqPc.due, Deals, hlt, and_true]
    rfl
  · rw [ClusterConfig.scan_wrapped hseed hl' hge]
    refine h.move hi trivial rfl fun k => ?_
    have hnot : ¬ Deals cluster.pools.length k seed := fun hd => absurd hd.2 (by omega)
    exact (decide_eq_false hnot).symm

theorem step_dealt (h : Dealt cluster c s) (hl : 0 < cluster.pools.length)
    (hl' : cluster.pools.length < 2 ^ 64) {a : Act T} (ha : firstAttempts cluster s a)
    (hstep : s.step codec a = some s') (hfew : c + s'.sends.length < 2 ^ 64) :
    Dealt cluster c s' := by
  cases step_cases hstep with
  | send task _ =>
    refine ⟨h.pools, h.round_robin, ?_, fun x hx => ?_, fun k => ?_⟩
    · rw [List.countP_append]
      exact h.rr_counter
    · rcases List.mem_append.1 hx with hx | hx
      · exact h.calls x hx
      · rw [List.mem_singleton.1 hx]
        trivial
    · rw [List.countP_append]
      exact h.due k
  | send_load hi => exact h.move hi h.pools rfl fun _ => rfl
  | send_draw hi hdraw =>
    cases h.calls _ (List.mem_of_getElem? hi)
    have hseed : cluster.draw s.round_robin s.rr_counter none =
        (some s.rr_counter, usize (s.rr_counter + 1)) := by
      rw [ClusterConfig.draw, if_neg (by omega), h.round_robin]
      rfl
    cases hseed.symm.trans hdraw
    exact h.draw hi (by simpa only [setSend, List.length_set] using hfew)
  | send_none hi hempty =>
    have hzero := hempty cluster (h.calls _ (List.mem_of_getElem? hi))
    omega
  | send_pick hi hscan =>
    obtain ⟨rfl, -⟩ := h.calls _ (List.mem_of_getElem? hi)
    have hdealt := h.scan hl hl' ha hi
    rw [hscan] at hdealt
    exact ⟨hdealt.pools, hdealt.round_robin, hdealt.rr_counter, hdealt.calls, hdealt.due⟩
  | send_miss hi hscan =>
    obtain ⟨rfl, -⟩ := h.calls _ (List.mem_of_getElem? hi)
    have hdealt := h.scan hl hl' ha hi
    rwa [hscan] at hdealt
  | resolve_done | resolve_retry _ => exact ⟨h.pools, h.round_robin, h.rr_counter, h.calls, h.due⟩
  | retry_recv _ _ | retry_load _ | retry_draw _ _ _ | retry_none | retry_pick _ _ | retry_miss | update _ _
  | update_load _ | update_draw _ | update_store _ | drop _ _ _ => cases ha

theorem step_sends_length {a : Act T} (hstep : s.step codec a = some s') :
    s.sends.length ≤ s'.sends.length := by
  cases step_cases hstep with
  | send task _ => simp
  | send_load _ | send_draw _ _ | send_none _ _ | send_pick _ _ | send_miss _ _ =>
    simp only [setSend, List.length_set, Nat.le_refl]
  | _ => exact Nat.le_refl _

omit [ClientTaskCommon T] in
/-- When all calls have returned, what the places got of the numbers below the last
`l`. -/
theorem Dealt.shares (h : Dealt cluster c s) (hl : cluster.pools.length < 2 ^ 64)
    (hret : ∀ x ∈ s.sends, x.pc.isReturned = true) (k : Nat) :
    (s.sends.countP fun x => x.pc.picked cluster.pools.length k) +
        (min c (2 ^ 64 - cluster.pools.length)).count (fun i => i % cluster.pools.length = k) =
      (min (c + s.sends.length) (2 ^ 64 - cluster.pools.length)).count
        fun i => i % cluster.pools.length = k := by
  have hdeals : Deals cluster.pools.length k =
      fun i => i % cluster.pools.length = k ∧ i < 2 ^ 64 - cluster.pools.length := by
    funext i
    refine propext (and_congr_right fun _ => ?_)
    omega
  have hall : (s.sends.countP fun x => x.pc.drew) = s.sends.length :=
    List.countP_eq_length.2 fun x hx => SendReqPc.drew_of_returned (hret x hx)
  have hpicked : (s.sends.countP fun x => x.pc.picked cluster.pools.length k) =
      s.sends.countP fun x => x.pc.due cluster.pools.length k :=
    List.countP_congr fun x hx => by rw [SendReqPc.picked_eq_due (hret x hx)]
  have hdue := h.due k
  rw [h.rr_counter, hall] at hdue
  simp only [hdeals] at hdue
  rw [hpicked, ← count_below, ← count_below]
  exact hdue

end

/-- Over all interleavings of first attempts, with all pools healthy and a counter
that does not wrap: the calls take the pools at the places they count for, and
every pool is selected `n / l` times, rounded down or up, exactly when that many
whole rounds of the numbers that the calls drew are below the last `l` numbers. -/
theorem selected_equally_iff (codec : C) {s₀ s : AtomicPool T} {tr : List (AtomicPool T × Act T)}
    (hrun : Run (step codec) s₀ tr s) {cluster : ClusterConfig} (hpools : s₀.pools = some cluster)
    (hl : 0 < cluster.pools.length) (hl' : cluster.pools.length < 2 ^ 64)
    (hrr : s₀.round_robin = true) (hsends : s₀.sends = [])
    (hacts : Meets (firstAttempts cluster) tr) (hret : ∀ x ∈ s.sends, x.pc.isReturned = true)
    (hwrap : s₀.rr_counter + s.sends.length < 2 ^ 64) :
    (∀ x ∈ s.sends, ∀ i pool, x.pc = .returned (some (i, pool)) →
      cluster.pools[i % cluster.pools.length]? = some pool) ∧
    ((∀ k < cluster.pools.length,
        (s.sends.countP fun x => x.pc.picked cluster.pools.length k) =
        s.sends.length / cluster.pools.length ∨
        (s.sends.countP fun x => x.pc.picked cluster.pools.length k) =
          (s.sends.length + cluster.pools.length - 1) / cluster.pools.length) ↔
      (min (s₀.rr_counter + s.sends.length) (2 ^ 64 - cluster.pools.length) - s₀.rr_counter) /
        cluster.pools.length =
        s.sends.length / cluster.pools.length) := by
  have h0 : Dealt cluster s₀.rr_counter s₀ := by
    refine ⟨hpools, hrr, ?_, fun x hx => ?_, fun k => ?_⟩
    · rw [hsends]
      rfl
    · rw [hsends] at hx
      cases hx
    · rw [hsends]
      exact Nat.zero_add _
  have h := hrun.inv_of_meets (fun s => s₀.rr_counter + s.sends.length < 2 ^ 64 →
    Dealt cluster s₀.rr_counter s)
    (fun _ => h0) (fun s a s' hi ha hstep hfew => by
      have hlen := step_sends_length hstep
      exact step_dealt (hi (by omega)) hl hl' ha hstep hfew) hacts hwrap
  -- when the counter starts among the last `l` numbers, no call gets a pool
  have hstart : min s₀.rr_counter (2 ^ 64 - cluster.pools.length) +
        (min (s₀.rr_counter + s.sends.length) (2 ^ 64 - cluster.pools.length) - s₀.rr_counter) =
      min (s₀.rr_counter + s.sends.length) (2 ^ 64 - cluster.pools.length) := by
    omega
  refine ⟨fun x hx i pool hpc => ?_,
    shares_iff hl (by omega) (min s₀.rr_counter (2 ^ 64 - cluster.pools.length)) fun k _ => ?_⟩
  · have hof := h.calls x hx
    rwa [hpc] at hof
  · rw [hstart]
    exact h.shares hl' hret k

/-- Three calls, of which the second draws first. -/
def threeCalls : List (Act SampleTask) :=
  [.send sampleTask, .send sampleTask, .send_load 0, .send_load 1, .send_draw 1, .send_draw 0,
    .send_scan 0 fun _ => true,
    .send sampleTask, .send_load 2, .send_draw 2, .send_scan 2 fun _ => true,
    .send_scan 1 fun _ => true]

theorem selected_equally_iff_three :
    ∃ tr s, Run (step ()) (new ["a", "b"] true 0) tr s ∧ tr.map Prod.snd = threeCalls ∧
      s.sends.length = 3 ∧
      ∀ k < 2, (s.sends.countP fun x => x.pc.picked 2 k) = 1 ∨
      (s.sends.countP fun x => x.pc.picked 2 k) = 2 := by
  have hfollow : ∃ r, follow (step ()) (new ["a", "b"] true 0) threeCalls = some r ∧
      r.1.map Prod.snd = threeCalls ∧
      r.2.sends.length = 3 ∧ r.2.sends.all (fun x => x.pc.isReturned) = true := ⟨_, rfl, rfl, rfl, rfl⟩
  obtain ⟨⟨tr, s⟩, hfollow, hacts, hlen, hret⟩ := hfollow
  have hrun := Run.of_follow hfollow
  have hfirst : Meets (firstAttempts ⟨[⟨"a", 0⟩, ⟨"b", 1⟩], 0⟩) tr := by
    have hall : ∀ a ∈ threeCalls, ∀ t, firstAttempts ⟨[⟨"a", 0⟩, ⟨"b", 1⟩], 0⟩ t a := by
      simp [threeCalls, firstAttempts]
    intro p hp
    exact hall p.2 (hacts ▸ List.mem_map_of_mem hp) p.1
  have hfair :=
    (selected_equally_iff () hrun rfl (by decide) (by decide) rfl rfl hfirst
    (List.all_eq_true.1 hret)
    (by rw [hlen]; decide)).2.2 (by rw [hlen]; rfl)
  rw [hlen] at hfair
  exact ⟨tr, s, hrun, hacts, hlen, hfair⟩

/-- The counter has handed out all numbers but the last three. -/
def nearEnd : AtomicPool SampleTask :=
  { new ["a", "b"] true 0 with rr_counter := 2 ^ 64 - 3 }

/-- Two calls, one after the other. -/
def twoCalls : List (Act SampleTask) :=
  [.send sampleTask, .send_load 0, .send_draw 0, .send_scan 0 fun _ => true,
    .send sampleTask, .send_load 1, .send_draw 1, .send_scan 1 fun _ => true]

/-- The second call finds no pool, although both are healthy: of two calls to two
pools, the first pool gets none. -/
theorem selected_unequally :
    ∃ tr s, Run (step ()) nearEnd tr s ∧ tr.map Prod.snd = twoCalls ∧ s.sends.length = 2 ∧
      s.rr_counter = nearEnd.rr_counter + 2 ∧
      (s.sends.map fun x => x.pc.isReturned) = [true, true] ∧
      (s.sends.countP fun x => x.pc.picked 2 0) = 0 ∧
      (s.sends.countP fun x => x.pc.picked 2 1) = 1 := by
  have hfollow : ∃ r, follow (step ()) nearEnd twoCalls = some r ∧ r.1.map Prod.snd = twoCalls ∧
      r.2.sends.length = 2 ∧ r.2.rr_counter = nearEnd.rr_counter + 2 ∧
      (r.2.sends.map fun x => x.pc.isReturned) = [true, true] ∧
      (r.2.sends.countP fun x => x.pc.picked 2 0) = 0 ∧
      (r.2.sends.countP fun x => x.pc.picked 2 1) = 1 := ⟨_, rfl, rfl, rfl, rfl, rfl, rfl, rfl⟩
  obtain ⟨⟨tr, s⟩, hfollow, hrest⟩ := hfollow
  exact ⟨tr, s, Run.of_follow hfollow, hrest⟩

end AtomicPool

end OccamsRpc
