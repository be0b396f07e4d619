import OccamsRpc.Client.Atomic
import OccamsRpc.Tcp.Request
/-!
# Versions

A call of `update_addrs` draws the version of its configuration with a `fetch_add`,
so that as long as the counter does not wrap no two configurations have the same,
however the calls interleave. The store that follows is unconditional: it puts the
configuration in place whatever has been stored since the draw.
-/
open Lib

namespace OccamsRpc

/-- The configuration that a call has made and not yet stored. -/
def UpdatePc.pending : UpdatePc → Option ClusterConfig
  | .drawn cluster => some cluster
  | _ => none

namespace AtomicPool

variable {C T : Type} [ClientTaskCommon T] [ClientTask C T]

/-- The cluster that a call has drawn and not stored. -/
def pendingAt (s : AtomicPool T) (i : Nat) : Option ClusterConfig :=
  s.updates[i]?.bind fun u => u.pc.pending

section
variable {s : AtomicPool T} {i j : Nat} {addrs : List String} {pc : UpdatePc} {c : ClusterConfig}

omit [ClientTaskCommon T]

theorem pendingAt_of_drawn (h : s.updates[i]? = some ⟨addrs, .drawn c⟩) :
    s.pendingAt i = some c := by
  rw [pendingAt, h]
  rfl

theorem pendingAt_setUpdate (h : (s.setUpdate i addrs pc).pendingAt j = some c) :
    j = i ∧ pc.pending = some c ∨ j ≠ i ∧ s.pendingAt j = some c := by
  rw [pendingAt, setUpdate] at h
  obtain ⟨u, hu, hc⟩ := Option.bind_eq_some_iff.1 h
  by_cases hj : j = i
  · subst hj
    have hlt := (List.getElem?_eq_some_iff.1 hu).1
    rw [List.length_set] at hlt
    rw [List.getElem?_set_self hlt] at hu
    cases hu
    exact .inl ⟨rfl, hc⟩
  · rw [List.getElem?_set_ne (Ne.symm hj)] at hu
    exact .inr ⟨hj, Option.bind_eq_some_iff.2 ⟨u, hu, hc⟩⟩

theorem pendingAt_update
    (h : pendingAt { s with updates := s.updates ++ [⟨addrs, .called⟩] } j = some c) :
    s.pendingAt j = some c := by
  obtain ⟨u, hu, hc⟩ := Option.bind_eq_some_iff.1 h
  rcases Nat.lt_trichotomy j s.updates.length with hlt | rfl | hgt
  · rw [List.getElem?_append_left hlt] at hu
    exact Option.bind_eq_some_iff.2 ⟨u, hu, hc⟩
  · rw [List.getElem?_concat_length] at hu
    cases hu
    cases hc
  · rw [List.getElem?_eq_none (by rw [List.length_append, List.length_singleton]; exact hgt)] at hu
    cases hu

end

/-! ## No version twice -/

/-- The versions of the configurations stored and of those still to be stored. -/
structure Versioned (s : AtomicPool T) : Prop where
  installed_le : ∀ c ∈ s.installed, c.ver ≤ s.ver
  pending_le : ∀ i c, s.pendingAt i = some c → c.ver ≤ s.ver
  nodup : (s.installed.map ClusterConfig.ver).Nodup
  fresh : ∀ i c, s.pendingAt i = some c → ∀ c' ∈ s.installed, c'.ver ≠ c.ver
  distinct : ∀ i j c c', s.pendingAt i = some c → s.pendingAt j = some c' → c.ver = c'.ver → i = j

/-- The next version does not wrap. -/
def verFits (s : AtomicPool T) : Act T → Prop
  | .update_draw _ => s.ver + 1 < 2 ^ 64
  | _ => True

section
variable {codec : C} {s s' : AtomicPool T}

omit [ClientTaskCommon T] in
theorem new_versioned (addrs : List String) (round_robin : Bool) (retry_limit : Nat) :
    (new addrs round_robin retry_limit : AtomicPool T).Versioned where
  installed_le c hc := by
    rw [List.mem_singleton.1 hc]
    exact Nat.zero_le _
  pending_le i c hc := by cases hc
  nodup := List.nodup_singleton _
  fresh i c hc := by cases hc
  distinct i j c c' hc := by cases hc

omit [ClientTaskCommon T] in
/-- A call goes on with nothing to store. -/
theorem Versioned.move (h : s.Versioned) {i : Nat} {addrs : List String} {pc : UpdatePc}
    (hpc : pc.pending = none) :
    (s.setUpdate i addrs pc).Versioned := by
  have hold : ∀ {j c}, (s.setUpdate i addrs pc).pendingAt j = some c → s.pendingAt j = some c := by
    intro j c hc
    obtain ⟨-, hc⟩ | ⟨-, hc⟩ := pendingAt_setUpdate hc
    · rw [hpc] at hc
      cases hc
    · exact hc
  exact ⟨h.installed_le, fun j c hc => h.pending_le j c (hold hc), h.nodup,
    fun j c hc => h.fresh j c (hold hc),
    fun j k c c' hc hc' => h.distinct j k c c' (hold hc) (hold hc')⟩

omit [ClientTaskCommon T] in
/-- A call draws a version, which is above all others. -/
theorem Versioned.draw (h : s.Versioned) {i : Nat} {addrs : List String} {pools : List Pool}
    {next_id : Nat} :
    ({ s with ver := s.ver + 1, next_id := next_id }.setUpdate i addrs
      (.drawn ⟨pools, s.ver + 1⟩)).Versioned := by
  have hcase : ∀ {j c},
      ({ s with ver := s.ver + 1, next_id := next_id }.setUpdate i addrs
        (.drawn ⟨pools, s.ver + 1⟩)).pendingAt j = some c →
      j = i ∧ c.ver = s.ver + 1 ∨ s.pendingAt j = some c ∧ c.ver ≤ s.ver := by
    intro j c hc
    obtain ⟨hj, ⟨⟩⟩ | ⟨-, hc⟩ := pendingAt_setUpdate hc
    · exact .inl ⟨hj, rfl⟩
    · exact .inr ⟨hc, h.pending_le j c hc⟩
  refine ⟨fun c hc => Nat.le_succ_of_le (h.installed_le c hc), fun j c hc => ?_, h.nodup,
    fun j c hc c' hc' => ?_, fun j k c c' hc hc' hver => ?_⟩
  · show c.ver ≤ s.ver + 1
    rcases hcase hc with ⟨-, hv⟩ | ⟨-, hv⟩ <;> omega
  · have hle := h.installed_le c' hc'
    rcases hcase hc with ⟨-, hv⟩ | ⟨hc, -⟩
    · omega
    · exact h.fresh j c hc c' hc'
  · rcases hcase hc with ⟨hj, hv⟩ | ⟨hc, hv⟩ <;> rcases hcase hc' with ⟨hk, hv'⟩ | ⟨hc', hv'⟩
    · rw [hj, hk]
    · omega
    · omega
    · exact h.distinct j k c c' hc hc' hver

omit [ClientTaskCommon T] in
/-- A call stores what it has made. -/
theorem Versioned.store (h : s.Versioned) {i : Nat} {addrs : List String} {cluster : ClusterConfig}
    (hi : s.updates[i]? = some ⟨addrs, .drawn cluster⟩) :
    ({ s with pools := some cluster, installed := s.installed ++ [cluster] }.setUpdate i addrs
      (.returned cluster)).Versioned := by
  have hat := pendingAt_of_drawn hi
  have hold :
      ∀ {j c}, ({ s with pools := some cluster, installed := s.installed ++ [cluster] }.setUpdate i
        addrs
      (.returned cluster)).pendingAt j = some c → j ≠ i ∧ s.pendingAt j = some c := by
    intro j c hc
    obtain ⟨-, ⟨⟩⟩ | hc := pendingAt_setUpdate hc
    exact hc
  refine ⟨fun c hc => ?_, fun j c hc => h.pending_le j c (hold hc).2, ?_, fun j c hc c' hc' => ?_,
    fun j k c c' hc hc' => h.distinct j k c c' (hold hc).2 (hold hc').2⟩
  · rcases List.mem_append.1 hc with hc | hc
    · exact h.installed_le c hc
    · rw [List.mem_singleton.1 hc]
      exact h.pending_le i cluster hat
  · show ((s.installed ++ [cluster]).map ClusterConfig.ver).Nodup
    rw [List.map_append, List.nodup_append]
    refine ⟨h.nodup, List.nodup_singleton _, ?_⟩
    rintro v hv _ hw rfl
    obtain ⟨c, hc, rfl⟩ := List.mem_map.1 hv
    exact h.fresh i cluster hat c hc (List.mem_singleton.1 hw)
  · obtain ⟨hj, hc⟩ := hold hc
    rcases List.mem_append.1 hc' with hc' | hc'
    · exact h.fresh j c hc c' hc'
    · rw [List.mem_singleton.1 hc']
      exact fun hver => hj (h.distinct i j cluster c hat hc hver).symm

theorem step_versioned (h : s.Versioned) {a : Act T} (ha : s.verFits a)
    (hstep : s.step codec a = some s') :
    s'.Versioned := by
  cases step_cases hstep with
  | update addrs _ =>
    exact ⟨h.installed_le, fun j c hc => h.pending_le j c (pendingAt_update hc), h.nodup,
      fun j c hc => h.fresh j c (pendingAt_update hc),
      fun j k c c' hc hc' => h.distinct j k c c' (pendingAt_update hc) (pendingAt_update hc')⟩
  | update_load hi => exact h.move rfl
  | update_draw hi =>
    rw [show u64 (s.ver + 1) = s.ver + 1 from Nat.mod_eq_of_lt ha]
    exact h.draw
  | update_store hi => exact h.store hi
  | _ => exact ⟨h.installed_le, h.pending_le, h.nodup, h.fresh, h.distinct⟩

end

/-! ## The last store -/

/-- When all calls have returned, the configuration in place is the one that was
given the greatest version. -/
def NotRegressed (s : AtomicPool T) : Prop :=
  s.handle = true → s.updates ≠ [] → (∀ u ∈ s.updates, u.pc.isReturned = true) →
    ∃ c, s.pools = some c ∧ (∃ u ∈ s.updates, u.pc = .returned c) ∧
      ∀ u ∈ s.updates, ∀ c', u.pc = .returned c' → c'.ver ≤ c.ver

/-- Calls store in the order in which they drew, and the versions do not wrap. -/
def storesInOrder (s : AtomicPool T) : Act T → Prop
  | .update_draw _ => s.ver + 1 < 2 ^ 64
  | .update_store i => ∀ c ∈ s.pendingAt i, ∀ u ∈ s.updates, ∀ c' ∈ u.pc.pending, c.ver ≤ c'.ver
  | _ => True

instance (s : AtomicPool T) : (a : Act T) → Decidable (s.storesInOrder a)
  | .update_draw _ => inferInstanceAs (Decidable (_ < _))
  | .update_store i =>
    inferInstanceAs (Decidable (∀ c ∈ s.pendingAt i, ∀ u ∈ s.updates, ∀ c' ∈ u.pc.pending, c.ver ≤ c'.ver))
  | .send _ | .send_load _ | .send_draw _ | .send_scan _ _ | .resolve _
    _ | .retry_recv | .retry_load | .retry_draw
  | .retry_scan _ | .update _ | .update_load _ | .drop => isTrue trivial

/-- The last configuration stored, against the others and those still to be stored. -/
structure Latest (s : AtomicPool T) : Prop where
  pools : s.handle = true → s.pools = s.installed.getLast?
  last : ∃ c, s.installed.getLast? = some c
  installed_le : ∀ c, s.installed.getLast? = some c → ∀ c' ∈ s.installed, c'.ver ≤ c.ver
  lt_pending : ∀ c, s.installed.getLast? = some c → ∀ i c', s.pendingAt i = some c' → c.ver < c'.ver
  returned : ∀ u ∈ s.updates, ∀ c, u.pc = .returned c → c ∈ s.installed
  given : ∀ c, s.installed.getLast? = some c →
    (∃ u ∈ s.updates, u.pc = .returned c) ∨ ∀ u ∈ s.updates, u.pc.isReturned = false

section
variable {codec : C} {s s' : AtomicPool T}

omit [ClientTaskCommon T] in
theorem storesInOrder.verFits {a : Act T} (h : s.storesInOrder a) : s.verFits a := by
  cases a with
  | update_draw i => exact h
  | _ => trivial

omit [ClientTaskCommon T] in
theorem new_latest (addrs : List String) (round_robin : Bool) (retry_limit : Nat) :
    (new addrs round_robin retry_limit : AtomicPool T).Latest where
  pools _ := rfl
  last := ⟨_, rfl⟩
  installed_le := by
    rintro _ ⟨⟩ c' hc'
    rw [List.mem_singleton.1 hc']
    exact Nat.le_refl _
  lt_pending := by
    rintro _ ⟨⟩ i c' hc'
    cases hc'
  returned := nofun
  given := fun _ _ => .inr nofun

omit [ClientTaskCommon T] in
/-- A call goes on that has not returned before and does not now. -/
theorem Latest.move (h : s.Latest) {i : Nat} {addrs : List String} {pc pc' : UpdatePc}
    (hi : s.updates[i]? = some ⟨addrs, pc⟩) (hpc : pc.isReturned = false)
    (hpc' : pc'.isReturned = false)
    (hlt : ∀ c c', s.installed.getLast? = some c → pc'.pending = some c' → c.ver < c'.ver)
    {ver next_id : Nat} :
    ({ s with ver := ver, next_id := next_id }.setUpdate i addrs pc').Latest where
  pools := h.pools
  last := h.last
  installed_le := h.installed_le
  lt_pending c hc j c' hc' := by
    obtain ⟨-, hc'⟩ | ⟨-, hc'⟩ := pendingAt_setUpdate hc'
    · exact hlt c c' hc hc'
    · exact h.lt_pending c hc j c' hc'
  returned u hu c hc := by
    rcases List.mem_or_eq_of_mem_set hu with hu | rfl
    · exact h.returned u hu c hc
    · have hc : pc' = .returned c := hc
      rw [hc] at hpc'
      cases hpc'
  given c hc := by
    rcases h.given c hc with ⟨u, hu, huc⟩ | hnone
    · -- the call that has returned is another one
      left
      obtain ⟨j, hj⟩ := List.mem_iff_getElem?.1 hu
      refine ⟨u, List.mem_iff_getElem?.2 ⟨j, ?_⟩, huc⟩
      have hne : i ≠ j := by
        rintro rfl
        cases hi.symm.trans hj
        have huc : pc = .returned c := huc
        rw [huc] at hpc
        cases hpc
      exact (List.getElem?_set_ne hne).trans hj
    · exact .inr (forall_mem_set hnone hpc')

omit [ClientTaskCommon T] in
/-- A call stores the smallest version of those still to be stored. -/
theorem Latest.store (h : s.Latest) (hv : s.Versioned) {i : Nat} {addrs : List String}
    {cluster : ClusterConfig} (hi : s.updates[i]? = some ⟨addrs, .drawn cluster⟩)
    (hmin : ∀ j c', s.pendingAt j = some c' → cluster.ver ≤ c'.ver) :
    ({ s with pools := some cluster, installed := s.installed ++ [cluster] }.setUpdate i addrs
      (.returned cluster)).Latest := by
  have hat := pendingAt_of_drawn hi
  have hlast : (s.installed ++ [cluster]).getLast? = some cluster := List.getLast?_concat
  obtain ⟨c₀, hc₀⟩ := h.last
  refine ⟨fun _ => hlast.symm, ⟨cluster, hlast⟩, fun c hc c' hc' => ?_, fun c hc j c' hc' => ?_,
    fun u hu c hc => ?_, fun c hc => .inl ?_⟩
  · cases hlast.symm.trans hc
    rcases List.mem_append.1 hc' with hc' | hc'
    · exact Nat.le_of_lt
        (Nat.lt_of_le_of_lt (h.installed_le c₀ hc₀ c' hc') (h.lt_pending c₀ hc₀ i cluster hat))
    · rw [List.mem_singleton.1 hc']
  · cases hlast.symm.trans hc
    obtain ⟨-, ⟨⟩⟩ | ⟨hj, hc'⟩ := pendingAt_setUpdate hc'
    have hc' : s.pendingAt j = some c' := hc'
    exact Nat.lt_of_le_of_ne (hmin j c' hc') fun he =>
      hj (hv.distinct i j cluster c' hat hc' he).symm
  · rcases List.mem_or_eq_of_mem_set hu with hu | rfl
    · exact List.mem_append_left _ (h.returned u hu c hc)
    · cases hc
      exact List.mem_append_right _ (List.mem_singleton_self _)
  · cases hlast.symm.trans hc
    have hlt := (List.getElem?_eq_some_iff.1 hi).1
    exact ⟨⟨addrs, .returned cluster⟩, List.mem_set hlt _, rfl⟩

theorem step_latest (h : s.Latest) (hv : s.Versioned) {a : Act T} (ha : s.storesInOrder a)
    (hstep : s.step codec a = some s') : s'.Latest := by
  cases step_cases hstep with
  | update addrs _ =>
    refine ⟨h.pools, h.last, h.installed_le,
      fun c hc j c' hc' => h.lt_pending c hc j c' (pendingAt_update hc'),
      fun u hu c hc => ?_, fun c hc => ?_⟩
    · rcases List.mem_append.1 hu with hu | hu
      · exact h.returned u hu c hc
      · rw [List.mem_singleton.1 hu] at hc
        cases hc
    · rcases h.given c hc with ⟨u, hu, huc⟩ | hnone
      · exact .inl ⟨u, List.mem_append_left _ hu, huc⟩
      · right
        intro u hu
        rcases List.mem_append.1 hu with hu | hu
        · exact hnone u hu
        · rw [List.mem_singleton.1 hu]
          rfl
  | update_load hi => exact h.move hi rfl rfl (by rintro _ _ - ⟨⟩)
  | update_draw hi =>
    refine h.move hi rfl rfl fun c c' hc hc' => ?_
    cases hc'
    have hle := hv.installed_le c (List.mem_of_getLast? hc)
    rw [show u64 (s.ver + 1) = s.ver + 1 from Nat.mod_eq_of_lt ha]
    exact Nat.lt_succ_of_le hle
  | update_store hi =>
    refine h.store hv hi fun j c' hc' => ?_
    obtain ⟨u, hu, hc'⟩ := Option.bind_eq_some_iff.1 hc'
    exact ha _ (pendingAt_of_drawn hi) u (List.mem_of_getElem? hu) c' hc'
  | drop _ _ _ => exact ⟨nofun, h.last, h.installed_le, h.lt_pending, h.returned, h.given⟩
  | _ => exact ⟨h.pools, h.last, h.installed_le, h.lt_pending, h.returned, h.given⟩

omit [ClientTaskCommon T] in
theorem Latest.notRegressed (h : s.Latest) : s.NotRegressed := by
  intro hh hne hret
  obtain ⟨c, hc⟩ := h.last
  refine ⟨c, (h.pools hh).trans hc, ?_, fun u hu c' hc' => h.installed_le c hc c' (h.returned u hu c' hc')⟩
  rcases h.given c hc with hgiven | hnone
  · exact hgiven
  · obtain ⟨u, hu⟩ := List.exists_mem_of_ne_nil _ hne
    cases (hnone u hu).symm.trans (hret u hu)

end

/-- In every run in which the calls store in the order in which they drew their
versions, and the versions do not wrap, no configuration is replaced by an older
one. -/
theorem last_store_greatest (codec : C) (addrs : List String) (round_robin : Bool)
    (retry_limit : Nat) {tr : List (AtomicPool T × Act T)} {s : AtomicPool T}
    (hrun : Run (step codec) (new addrs round_robin retry_limit) tr s)
    (hok : Meets storesInOrder tr) :
    s.NotRegressed := by
  have h : s.Versioned ∧ s.Latest := hrun.inv_of_meets (fun s => s.Versioned ∧ s.Latest)
    ⟨new_versioned addrs round_robin retry_limit, new_latest addrs round_robin retry_limit⟩
    (fun _ _ _ hi ha hstep => ⟨step_versioned hi.1 ha.verFits hstep, step_latest hi.2 hi.1 ha hstep⟩) hok
  exact h.2.notRegressed

/-- Two calls overlap, and store in the order in which they drew. -/
def overlapping : List (Act SampleTask) :=
  [.update ["a"], .update ["b"], .update_load 1, .update_load 0, .update_draw 0, .update_store 0,
    .update_draw 1, .update_store 1]

theorem last_store_greatest_overlapping :
    ∃ tr s, Run (step ()) (new [] false 0) tr s ∧ tr.map Prod.snd = overlapping ∧
      s.pools.map ClusterConfig.ver = some 3 ∧
      s.NotRegressed := by
  have hfollow : ∃ r, follow (step ()) (new [] false 0) overlapping = some r ∧
      r.1.map Prod.snd = overlapping ∧
      r.2.pools.map ClusterConfig.ver = some 3 ∧
      (r.1.all fun p => decide (p.1.storesInOrder p.2)) = true :=
    ⟨_, rfl, rfl, rfl, rfl⟩
  obtain ⟨⟨tr, s⟩, hfollow, hacts, hver, hok⟩ := hfollow
  have hrun := Run.of_follow hfollow
  have hok : Meets storesInOrder tr := fun p hp => of_decide_eq_true (List.all_eq_true.1 hok p hp)
  exact ⟨tr, s, hrun, hacts, hver, last_store_greatest () [] false 0 hrun hok⟩

/-- The call that drew first stores last. -/
def overtaken : List (Act SampleTask) :=
  [.update ["a"], .update ["b"], .update_load 0, .update_draw 0, .update_load 1, .update_draw 1,
    .update_store 1, .update_store 0]

/-- Both calls have returned, one with version 2 and one with version 3, and the
configuration in place is the one with version 2. -/
theorem older_replaces_newer :
    ∃ tr s, Run (step ()) (new [] false 0) tr s ∧ tr.map Prod.snd = overtaken ∧
      s.pools = some ⟨[⟨"a", 0⟩], 2⟩ ∧
      s.updates = [⟨["a"], .returned ⟨[⟨"a", 0⟩], 2⟩⟩, ⟨["b"], .returned ⟨[⟨"b", 1⟩], 3⟩⟩] ∧
      ¬ s.NotRegressed := by
  have hfollow : ∃ r, follow (step ()) (new [] false 0) overtaken = some r ∧
      r.1.map Prod.snd = overtaken ∧
      r.2.handle = true ∧ r.2.pools = some ⟨[⟨"a", 0⟩], 2⟩ ∧
      r.2.updates = [⟨["a"], .returned ⟨[⟨"a", 0⟩], 2⟩⟩, ⟨["b"], .returned ⟨[⟨"b", 1⟩], 3⟩⟩] :=
    ⟨_, rfl, rfl, rfl, rfl, rfl⟩
  obtain ⟨⟨tr, s⟩, hfollow, hacts, hh, hpools, hupdates⟩ := hfollow
  refine ⟨tr, s, Run.of_follow hfollow, hacts, hpools, hupdates, fun h => ?_⟩
  have hpools : s.pools = some ⟨[⟨"a", 0⟩], 2⟩ := hpools
  have hupdates : s.updates =
    [⟨["a"], .returned ⟨[⟨"a", 0⟩], 2⟩⟩, ⟨["b"], .returned ⟨[⟨"b", 1⟩], 3⟩⟩] := hupdates
  obtain ⟨c, hc, -, hle⟩ := h hh (by rw [hupdates]; nofun) (by rw [hupdates]; decide)
  rw [hpools] at hc
  cases hc
  have hlt :=
    hle ⟨["b"], .returned ⟨[⟨"b", 1⟩], 3⟩⟩ (by rw [hupdates]; exact .tail _ (.head _)) _ rfl
  exact absurd hlt (by decide)

end AtomicPool

end OccamsRpc
