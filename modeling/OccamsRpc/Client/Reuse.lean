import OccamsRpc.Client.Failover
/-!
# The pools of a new configuration

`update_addrs` puts the old pools into a map by their address, where of two with
one address the later replaces the earlier, and goes through the new addresses:
one that is in the map takes its pool out, any other gets a new pool.
-/

namespace OccamsRpc

/-- The map from the addresses to the old pools. -/
def old_pools_map (old_pools : List Pool) : AList fun _ : String => Pool :=
  old_pools.foldl (fun m pool => m.insert pool.addr pool) ∅

/-- The pools of the map are found under their addresses; no two are the same, and
none has a number that is still free. -/
structure MapsPools (next_id : Nat) (m : AList fun _ : String => Pool) : Prop where
  addr_eq : ∀ a p, m.lookup a = some p → p.addr = a
  id_lt : ∀ a p, m.lookup a = some p → p.id < next_id
  inj : ∀ a b p q, m.lookup a = some p → m.lookup b = some q → p.id = q.id → a = b

/-- What the loop makes of the addresses: `pools`, and the next free number. -/
structure Reused (next_id : Nat) (m : AList fun _ : String => Pool) (addrs : List String)
    (pools : List Pool) (next_id' : Nat) : Prop where
  addrs_eq : pools.map Pool.addr = addrs
  next_le : next_id ≤ next_id'
  /-- Each is an old one or has a new number. -/
  old_or_new : ∀ p ∈ pools, m.lookup p.addr = some p ∨ next_id ≤ p.id
  id_lt : ∀ p ∈ pools, p.id < next_id'
  nodup : (pools.map Pool.id).Nodup
  /-- The old pool of an address is used. -/
  kept : ∀ a ∈ addrs, ∀ p, m.lookup a = some p → p ∈ pools

section
variable {next_id : Nat} {m : AList fun _ : String => Pool}

theorem lookup_erase_some {a b : String} {p : Pool} (h : (m.erase a).lookup b = some p) :
    b ≠ a ∧ m.lookup b = some p := by
  by_cases hb : b = a
  · rw [hb, AList.lookup_erase] at h
    cases h
  · rw [AList.lookup_erase_ne hb] at h
    exact ⟨hb, h⟩

theorem MapsPools.erase (h : MapsPools next_id m) (a : String) : MapsPools next_id (m.erase a) where
  addr_eq b p hp := h.addr_eq b p (lookup_erase_some hp).2
  id_lt b p hp := h.id_lt b p (lookup_erase_some hp).2
  inj b c p q hp hq := h.inj b c p q (lookup_erase_some hp).2 (lookup_erase_some hq).2

theorem MapsPools.mono (h : MapsPools next_id m) {n : Nat} (hn : next_id ≤ n) : MapsPools n m :=
  ⟨h.addr_eq, fun a p hp => Nat.lt_of_lt_of_le (h.id_lt a p hp) hn, h.inj⟩

theorem Reused.old {a : String} {p : Pool} {addrs : List String} {pools : List Pool} {n : Nat}
    (hm : MapsPools next_id m) (hp : m.lookup a = some p)
    (h : Reused next_id (m.erase a) addrs pools n) :
    Reused next_id m (a :: addrs) (p :: pools) n where
  addrs_eq := by rw [List.map_cons, h.addrs_eq, hm.addr_eq a p hp]
  next_le := h.next_le
  old_or_new q hq := by
    rcases List.mem_cons.1 hq with rfl | hq
    · rw [hm.addr_eq a q hp]
      exact .inl hp
    · exact (h.old_or_new q hq).imp_left fun hq => (lookup_erase_some hq).2
  id_lt q hq := by
    rcases List.mem_cons.1 hq with rfl | hq
    · exact Nat.lt_of_lt_of_le (hm.id_lt a q hp) h.next_le
    · exact h.id_lt q hq
  nodup := by
    rw [List.map_cons, List.nodup_cons]
    refine ⟨fun hmem => ?_, h.nodup⟩
    obtain ⟨q, hq, hid⟩ := List.mem_map.1 hmem
    -- a pool behind it with its number would be the one just taken out, or a new one
    rcases h.old_or_new q hq with hold | hnew
    · obtain ⟨hne, hold⟩ := lookup_erase_some hold
      exact hne (hm.inj _ _ q p hold hp hid)
    · have := hm.id_lt a p hp
      omega
  kept b hb q hq := by
    by_cases hba : b = a
    · rw [hba, hp] at hq
      cases hq
      exact List.mem_cons_self
    · refine List.mem_cons_of_mem _ (h.kept b ?_ q ?_)
      · exact (List.mem_cons.1 hb).resolve_left hba
      · rwa [AList.lookup_erase_ne hba]

theorem Reused.new {a : String} {addrs : List String} {pools : List Pool} {n : Nat}
    (hm : MapsPools next_id m) (ha : m.lookup a = none) (h : Reused (next_id + 1) m addrs pools n) :
    Reused next_id m (a :: addrs) (⟨a, next_id⟩ :: pools) n where
  addrs_eq := by rw [List.map_cons, h.addrs_eq]
  next_le := Nat.le_of_succ_le h.next_le
  old_or_new q hq := by
    rcases List.mem_cons.1 hq with rfl | hq
    · exact .inr (Nat.le_refl _)
    · exact (h.old_or_new q hq).imp_right Nat.le_of_succ_le
  id_lt q hq := by
    rcases List.mem_cons.1 hq with rfl | hq
    · exact h.next_le
    · exact h.id_lt q hq
  nodup := by
    rw [List.map_cons, List.nodup_cons]
    refine ⟨fun hmem => ?_, h.nodup⟩
    obtain ⟨q, hq, hid⟩ := List.mem_map.1 hmem
    have hid : q.id = next_id := hid
    rcases h.old_or_new q hq with hold | hnew
    · have := hm.id_lt _ q hold
      omega
    · omega
  kept b hb q hq := by
    refine List.mem_cons_of_mem _ (h.kept b ((List.mem_cons.1 hb).resolve_left ?_) q hq)
    rintro rfl
    rw [ha] at hq
    cases hq

end

theorem reuse_pools_reused {next_id : Nat} {m : AList fun _ : String => Pool}
    (hm : MapsPools next_id m) (addrs : List String) :
    Reused next_id m addrs (reuse_pools next_id m addrs).1 (reuse_pools next_id m addrs).2 := by
  induction addrs generalizing next_id m with
  | nil => exact ⟨rfl, Nat.le_refl _, nofun, nofun, .nil, nofun⟩
  | cons a addrs ih =>
    rw [reuse_pools]
    split
    case h_1 p hp => exact (ih (hm.erase a)).old hm hp
    case h_2 ha => exact (ih (hm.mono (Nat.le_succ _))).new hm ha

/-! ## From the old pools -/

theorem lookup_foldl_insert {old : List Pool} {m : AList fun _ : String => Pool} {a : String}
    {p : Pool} (h : (old.foldl (fun m pool => m.insert pool.addr pool) m).lookup a = some p) :
    m.lookup a = some p ∨ p ∈ old ∧ p.addr = a := by
  induction old generalizing m with
  | nil => exact .inl h
  | cons q old ih =>
    rcases ih h with h | ⟨hp, ha⟩
    · by_cases hq : a = q.addr
      · subst hq
        rw [AList.lookup_insert] at h
        cases h
        exact .inr ⟨List.mem_cons_self, rfl⟩
      · rw [AList.lookup_insert_ne hq] at h
        exact .inl h
    · exact .inr ⟨List.mem_cons_of_mem _ hp, ha⟩

theorem exists_lookup_foldl_insert {old : List Pool} {m : AList fun _ : String => Pool} {a : String}
    (h : (∃ p, m.lookup a = some p) ∨ ∃ p ∈ old, p.addr = a) :
    ∃ p, (old.foldl (fun m pool => m.insert pool.addr pool) m).lookup a = some p := by
  induction old generalizing m with
  | nil =>
    rcases h with h | ⟨p, hp, -⟩
    · exact h
    · cases hp
  | cons q old ih =>
    apply ih
    by_cases hq : a = q.addr
    · subst hq
      exact .inl ⟨q, AList.lookup_insert m⟩
    · rcases h with ⟨p, hp⟩ | ⟨p, hp, ha⟩
      · exact .inl ⟨p, by rwa [AList.lookup_insert_ne hq]⟩
      · rcases List.mem_cons.1 hp with rfl | hp
        · exact absurd ha.symm hq
        · exact .inr ⟨p, hp, ha⟩

theorem old_pools_map_lookup {old : List Pool} {a : String} {p : Pool}
    (h : (old_pools_map old).lookup a = some p) :
    p ∈ old ∧ p.addr = a := by
  rcases lookup_foldl_insert h with h | h
  · rw [AList.lookup_empty] at h
    cases h
  · exact h

/-- The pools of a configuration: no two are the same, and their numbers are used. -/
structure PoolIds (next_id : Nat) (pools : List Pool) : Prop where
  nodup : (pools.map Pool.id).Nodup
  id_lt : ∀ p ∈ pools, p.id < next_id

theorem PoolIds.mono {next_id n : Nat} {pools : List Pool} (h : PoolIds next_id pools)
    (hn : next_id ≤ n) :
    PoolIds n pools :=
  ⟨h.nodup, fun p hp => Nat.lt_of_lt_of_le (h.id_lt p hp) hn⟩

theorem PoolIds.maps {next_id : Nat} {old : List Pool} (h : PoolIds next_id old) :
    MapsPools next_id (old_pools_map old) where
  addr_eq _ _ hp := (old_pools_map_lookup hp).2
  id_lt _ p hp := h.id_lt p (old_pools_map_lookup hp).1
  inj a b p q hp hq hid := by
    obtain ⟨hp', rfl⟩ := old_pools_map_lookup hp
    obtain ⟨hq', rfl⟩ := old_pools_map_lookup hq
    rw [List.inj_on_of_nodup_map h.nodup hp' hq' hid]

/-- What `update_addrs` makes of the old pools: the new ones have the given
addresses in their order, an address that was there keeps one of its pools, and no
pool is used twice. -/
structure Renewed (next_id : Nat) (old : List Pool) (addrs : List String) (new : List Pool)
    (next_id' : Nat) : Prop where
  addrs_eq : new.map Pool.addr = addrs
  kept : ∀ a ∈ addrs, (∃ p ∈ old, p.addr = a) → ∃ p ∈ old, p.addr = a ∧ p ∈ new
  old_or_new : ∀ p ∈ new, p ∈ old ∨ next_id ≤ p.id
  numbered : PoolIds next_id' new
  next_le : next_id ≤ next_id'

theorem reuse_pools_renewed {next_id : Nat} {old : List Pool} (h : PoolIds next_id old)
    (addrs : List String) :
    Renewed next_id old addrs (reuse_pools next_id (old_pools_map old) addrs).1
      (reuse_pools next_id (old_pools_map old) addrs).2 := by
  obtain ⟨haddrs, hle, hold, hlt, hnd, hkept⟩ := reuse_pools_reused h.maps addrs
  refine ⟨haddrs, fun a ha hex => ?_, fun p hp => ?_, ⟨hnd, hlt⟩, hle⟩
  · obtain ⟨p, hp⟩ := exists_lookup_foldl_insert (m := ∅) (.inr hex)
    have hp : (old_pools_map old).lookup a = some p := hp
    obtain ⟨hmem, haddr⟩ := old_pools_map_lookup hp
    exact ⟨p, hmem, haddr, hkept a ha p hp⟩
  · exact (hold p hp).imp_left fun h => (old_pools_map_lookup h).1

theorem PoolIds.nil (next_id : Nat) : PoolIds next_id [] := ⟨.nil, nofun⟩

end OccamsRpc
