import OccamsRpc.Api.Remote
/-!
# The calls in the timer

The client's timer holds one task for each call under way. Making a call, reading
its answer and the passing of a second keep it so, as long as no call has waited
for the timeout.
-/

namespace OccamsRpc

open ClientTaskTimer

theorem toNat_seqOf {id : Nat} (h : id + 1 < 2 ^ 64) : (seqOf id).toNat = id + 1 := by
  rw [seqOf, UInt64.toNat_ofNat_of_lt' h]

theorem seqOf_succ (id : Nat) : seqOf id + 1 = seqOf (id + 1) := by
  simp [seqOf, UInt64.ofNat_add]

/-- The timer holds a task for each call under way, and no other. -/
structure Registry (tasks : Nat → APIClientReq) (tm : ClientTaskTimer APIClientReq)
    (timeout made : Nat) (ks : List Ticket) : Prop where
  timer : tm.Open timeout (made + 1)
  small : made < 2 ^ 64
  lt : ∀ k ∈ ks, k.id < made
  nodup : (ks.map Ticket.id).Nodup
  noti : ∀ k ∈ ks, (tasks k.id).noti = k.id
  seq_eq : ∀ k ∈ ks, (tasks k.id).seq = seqOf k.id
  aged : ∀ k ∈ ks, tm.Aged k.age (tasks k.id)
  items : ∀ t ∈ tm.items, ∃ k ∈ ks, t = tasks k.id

namespace Registry

variable {tasks : Nat → APIClientReq} {tm tm' : ClientTaskTimer APIClientReq} {timeout made : Nat}
  {k : Ticket}
  {ks ks' : List Ticket}

theorem new (tasks : Nat → APIClientReq) (timeout : Nat) :
    Registry tasks (.new timeout) timeout 0 [] where
  timer := open_new timeout
  small := by decide
  lt := by simp
  nodup := by simp
  noti := by simp
  seq_eq := by simp
  aged := by simp
  items := by simp [ClientTaskTimer.items, drained, tables, ClientTaskTimer.new]

theorem perm (h : Registry tasks tm timeout made ks) (hp : ks.Perm ks') :
    Registry tasks tm timeout made ks' where
  timer := h.timer
  small := h.small
  lt k hk := h.lt k (hp.mem_iff.2 hk)
  nodup := (hp.map _).nodup_iff.1 h.nodup
  noti k hk := h.noti k (hp.mem_iff.2 hk)
  seq_eq k hk := h.seq_eq k (hp.mem_iff.2 hk)
  aged k hk := h.aged k (hp.mem_iff.2 hk)
  items t ht := by
    obtain ⟨k, hk, he⟩ := h.items t ht
    exact ⟨k, hp.mem_iff.1 hk, he⟩

theorem seq_task (h : Registry tasks tm timeout made ks) (hk : k ∈ ks) :
    seq (tasks k.id) = k.id + 1 := by
  have hlt := h.lt k hk
  have hsmall := h.small
  show (tasks k.id).seq.toNat = k.id + 1
  rw [h.seq_eq k hk, toNat_seqOf (by omega)]

/-- A new call is registered. -/
theorem call (h : Registry tasks tm timeout made ks) {t : APIClientReq} (hsmall : made + 1 < 2 ^ 64)
    (hseq : t.seq = seqOf made) (hnoti : t.noti = made) :
    Registry (Function.update tasks made t) (tm.reg_task t) timeout (made + 1) (⟨made, 0⟩ :: ks) := by
  have hold : ∀ k ∈ ks, Function.update tasks made t k.id = tasks k.id := fun k hk =>
    Function.update_of_ne (Nat.ne_of_lt (h.lt k hk)) _ _
  have hnew : Function.update tasks made t made = t := Function.update_self _ _ _
  have hnat : seq t = made + 1 := by
    show t.seq.toNat = _
    rw [hseq, toNat_seqOf hsmall]
  constructor
  · rw [← hnat]
    exact Open.reg_task (hnat ▸ h.timer)
  · exact hsmall
  · simp only [List.forall_mem_cons]
    exact ⟨Nat.lt_succ_self _, fun k hk => Nat.lt_succ_of_lt (h.lt k hk)⟩
  · rw [List.map_cons, List.nodup_cons]
    refine ⟨fun hm => ?_, h.nodup⟩
    obtain ⟨k, hk, he⟩ := List.mem_map.1 hm
    exact Nat.ne_of_lt (h.lt k hk) he
  · simp only [List.forall_mem_cons, hnew]
    exact ⟨hnoti, fun k hk => by rw [hold k hk]; exact h.noti k hk⟩
  · simp only [List.forall_mem_cons, hnew]
    exact ⟨hseq, fun k hk => by rw [hold k hk]; exact h.seq_eq k hk⟩
  · simp only [List.forall_mem_cons, hnew]
    exact ⟨aged_reg_task tm t, fun k hk => by rw [hold k hk]; exact (h.aged k hk).reg_task t⟩
  · intro u hu
    rcases List.mem_cons.1 ((reg_task_items tm t).subset hu) with rfl | hu
    · exact ⟨⟨made, 0⟩, List.mem_cons_self, hnew.symm⟩
    · obtain ⟨k, hk, rfl⟩ := h.items u hu
      exact ⟨k, List.mem_cons_of_mem _ hk, (hold k hk).symm⟩

/-- The task of a call is found when its response comes. -/
theorem found (h : Registry tasks tm timeout made ks) (hk : k ∈ ks) :
    tasks k.id ∈ tm.drained ∨ tasks k.id ∈ tm.pending_tasks ∧ tm.reg_stopped_flag = false := by
  rcases List.mem_append.1 (h.aged k hk).mem_items with hp | hd
  · exact .inr ⟨hp, h.timer.registering⟩
  · exact .inl hd

/-- It is taken out, and every other task stays. -/
theorem take (h : Registry tasks tm timeout made (k :: ks))
    (ht : tm.take_task (seq (tasks k.id)) = (.ready (some (tasks k.id)), tm')) :
    Registry tasks tm' timeout made ks := by
  have hsub : ∀ j ∈ ks, j ∈ k :: ks := fun j hj => List.mem_cons_of_mem _ hj
  have hperm : tm.items.Perm (tasks k.id :: tm'.items) := by
    obtain ⟨tm₁, htm, hperm, -⟩ := take_task_found h.timer.wf (h.found List.mem_cons_self)
    rw [ht] at htm
    cases htm
    exact hperm
  have hnd := h.nodup
  rw [List.map_cons, List.nodup_cons] at hnd
  refine ⟨h.timer.take_task ht, h.small, fun j hj => h.lt j (hsub j hj), hnd.2,
    fun j hj => h.noti j (hsub j hj),
    fun j hj => h.seq_eq j (hsub j hj), fun j hj => ?_, fun u hu => ?_⟩
  · -- another call, so another seq
    refine (h.aged j (hsub j hj)).take_task h.timer.wf ?_ ht
    rw [h.seq_task (hsub j hj), h.seq_task List.mem_cons_self]
    intro he
    exact hnd.1 (List.mem_map.2 ⟨j, hj, Nat.succ.inj he⟩)
  · obtain ⟨j, hj, rfl⟩ := h.items u (hperm.mem_iff.2 (List.mem_cons_of_mem _ hu))
    rcases List.mem_cons.1 hj with rfl | hj
    · exact absurd rfl (take_task_gone h.timer.wf hperm _ hu)
    · exact ⟨j, hj, rfl⟩

/-- A second passes for calls that have waited less than the timeout. -/
theorem tick (h : Registry tasks tm timeout made ks) (hage : ∀ k ∈ ks, k.age < timeout)
    {out : List APIClientReq} (hq : tm.adjust_task_queue = (out, tm')) :
    out = [] ∧ Registry tasks tm'.poll_sent_task.2 timeout made (ks.map Remote.older) := by
  have hkeep : ∀ k ∈ ks, tasks k.id ∉ out ∧ tm'.Aged (k.age + 1) (tasks k.id) := fun k hk =>
    (h.aged k hk).adjust_task_queue h.timer.wf (h.timer.timeout_eq ▸ hage k hk) hq
  have hopen := h.timer.adjust_task_queue hq
  have hitems := adjust_task_queue_items hq
  refine ⟨?_, ?_⟩
  · refine List.eq_nil_iff_forall_not_mem.2 fun t ht => ?_
    obtain ⟨k, hk, rfl⟩ := h.items t (hitems.mem_iff.2 (List.mem_append_left _ ht))
    exact (hkeep k hk).1 ht
  · refine ⟨hopen.recv_all, h.small, ?_, ?_, ?_, ?_, ?_, ?_⟩
    · simpa [Remote.older] using h.lt
    · simpa [Remote.older, Function.comp_def] using h.nodup
    · simpa [Remote.older] using h.noti
    · simpa [Remote.older] using h.seq_eq
    · intro k' hk'
      obtain ⟨k, hk, rfl⟩ := List.mem_map.1 hk'
      exact (hkeep k hk).2.recv_all hopen.wf
    · intro t ht
      have ht' : t ∈ tm'.items := (recv_all_items hopen.wf).subset ht
      obtain ⟨k, hk, rfl⟩ := h.items t (hitems.mem_iff.2 (List.mem_append_right _ ht'))
      exact ⟨_, List.mem_map_of_mem hk, rfl⟩

end Registry

end OccamsRpc
