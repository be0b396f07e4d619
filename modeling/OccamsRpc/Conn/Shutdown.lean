import OccamsRpc.Conn.Calls
import OccamsRpc.Conn.Delivery
/-!
# The exit of `receive_loop`

The sender adds to the counter and then tests `closed`; the coroutine stores
`closed`, empties the timer and then tests the counter. Whichever test comes last
sees the other's write, so after the coroutine has returned no call is past its
test of `closed` and nothing is left in the timer.
-/
open Lib

namespace OccamsRpc.Conn

/-- The receiver has left its loop and cleans up. -/
def RecvState.leaving : RecvState → Bool
  | .cleaning | .failing | .testing | .returned => true
  | _ => false

/-- A receiver that leaves has closed the stream first, and it returns with an empty table,
an empty channel and no call in progress. -/
structure Leaving (s : Conn) : Prop where
  closed : s.receiver.leaving = true → s.closed = true
  drained : s.receiver = .testing ∨ s.receiver = .returned → s.timer.drained = []
  quiet : s.receiver = .returned → s.timer.pending_tasks = [] ∧ s.sender.active = false

theorem new_leaving (thresholds task_timeout : Nat) : Leaving (new thresholds task_timeout) := by
  constructor <;> simp [new, RecvState.leaving]

theorem RecvState.not_leaving {r : RecvState} (h : r.live = true ∨ r = .exiting) :
    r.leaving = false := by
  cases r <;> first | rfl | simp [live] at h

theorem SendPc.active_counted {pc : SendPc} (h : pc.active = true) : pc.counted = 1 := by
  cases pc <;> first | rfl | simp [active] at h

theorem Leaving.send {s s' : Conn} {a : SendAct} (hl : Leaving s) (h : SendMove s a s') :
    Leaving s' := by
  have hf := h.frame
  refine ⟨?_, ?_, ?_⟩
  · rw [hf.receiver]
    exact fun hr => hf.closed (hl.closed hr)
  · rw [hf.receiver, hf.drained]
    exact hl.drained
  · rw [hf.receiver]
    intro hr
    obtain ⟨hp, ha⟩ := hl.quiet hr
    have hc := hl.closed (by rw [hr]; rfl)
    cases h with
    | opened _ ho => rw [hc] at ho; cases ho
    | encode_ok h => rw [h] at ha; cases ha
    | encode_err h => rw [h] at ha; cases ha
    | write_ok h => rw [h] at ha; cases ha
    | write_err h => rw [h] at ha; cases ha
    | register h _ => rw [h] at ha; cases ha
    | @op op ops last _ => exact ⟨by cases op <;> exact hp, rfl⟩
    | other pc e _ h' _ _ => exact ⟨hp, SendPc.free_active h'⟩
    | _ => exact ⟨hp, rfl⟩

/-- The coroutine has not begun to leave. -/
theorem Leaving.of_not_leaving {s : Conn} (h : s.receiver.leaving = false) : Leaving s := by
  refine ⟨fun hl => ?_, fun hr => ?_, fun hr => ?_⟩
  · rw [h] at hl
    cases hl
  · rcases hr with hr | hr <;> rw [hr] at h <;> cases h
  · rw [hr] at h
    cases h

/-- It is emptying the timer. -/
theorem Leaving.of_emptying {s : Conn} (hc : s.closed = true)
    (h : s.receiver = .cleaning ∨ s.receiver = .failing) :
    Leaving s := by
  refine ⟨fun _ => hc, fun hr => ?_, fun hr => ?_⟩
  · rcases h with h | h <;> rw [h] at hr <;> rcases hr with hr | hr <;> cases hr
  · rcases h with h | h <;> rw [h] at hr <;> cases hr

theorem Leaving.recv {s s' : Conn} {a : RecvAct} (hc : Counted s) (hl : Leaving s)
    (h : RecvMove s a s') :
    Leaving s' := by
  cases h with
  | tick h hq => exact .of_not_leaving (by rw [h]; rfl)
  | pop h hr =>
    refine ⟨hl.closed, ?_, ?_⟩
    · rintro (h' | h') <;> rw [h'] at hr <;> cases hr
    · intro h'
      rw [h'] at hr
      cases hr
  | found | wait | sleep | finish | part_err | has_err | panic => exact .of_not_leaving rfl
  | store _ => exact .of_emptying rfl (.inl rfl)
  | cleaned h _ => exact .of_emptying (hl.closed (by rw [h]; rfl)) (.inr rfl)
  | fail h =>
    refine ⟨fun _ => hl.closed (by rw [h]; rfl), fun _ => ?_, fun hr => by cases hr⟩
    have hi := (ClientTaskTimer.fail_tasks_items s.timer).2
    rw [ClientTaskTimer.items] at hi
    exact List.append_right_eq_self.1 hi
  | again h _ => exact .of_emptying (hl.closed (by rw [h]; rfl)) (.inl rfl)
  | leave h hn =>
    refine ⟨fun _ => hl.closed (by rw [h]; rfl), fun _ => hl.drained (.inl h), fun _ => ?_⟩
    unfold Counted at hc
    have hp : s.timer.pending_tasks = [] := List.eq_nil_of_length_eq_zero (by omega)
    refine ⟨hp, ?_⟩
    -- a call past its test of `closed` would be in the counter
    cases ha : s.sender.active with
    | false => rfl
    | true => have := SendPc.active_counted ha; omega
  | other r c m _ hr _ _ _ _ => exact .of_not_leaving (RecvState.not_leaving hr)

theorem leaving {thresholds task_timeout : Nat} {tr : List (Conn × Act)} {s : Conn}
    (h : Run step (new thresholds task_timeout) tr s) : Leaving s := by
  refine (h.inv (fun s => Counted s ∧ Leaving s) ⟨new_counted _ _, new_leaving _ _⟩ ?_).2
  rintro s a s' ⟨hc, hl⟩ hs
  cases a with
  | snd a => exact ⟨hc.send (send_cases hs), hl.send (send_cases hs)⟩
  | rcv a => exact ⟨hc.recv (recv_cases hs), hl.recv hc (recv_cases hs)⟩

/-! ## After the return -/

/-- A task that was not lost is completed, unless its call still owns it. -/
theorem completed_of_returned {thresholds task_timeout : Nat} {tr : List (Conn × Act)} {s : Conn}
    (h : Run step (new thresholds task_timeout) tr s) (hr : s.receiver = .returned)
    (hs : s.lost_send = []) (hv : s.lost_recv = []) :
    s.timer.items = [] ∧ ∀ id < s.next_id, id ∉ s.sender.owned →
      (s.completed.map Prod.fst).count id = 1 := by
  have hl := leaving h
  have hi : s.timer.items = [] := by
    rw [ClientTaskTimer.items, (hl.quiet hr).1, hl.drained (.inr hr)]
    rfl
  refine ⟨hi, fun id hid ho => ?_⟩
  have hp : s.places.count id = 1 := by
    rw [(placed h).count_eq]
    exact List.count_eq_one_of_mem List.nodup_range (List.mem_range.2 hid)
  rw [count_places, hi, hr, hs, hv, List.count_eq_zero.2 ho] at hp
  simpa [RecvState.held] using hp

/-- What holds of the connection from the moment `s` in which the coroutine has
returned: no task is registered or lost, and every task whose call had not been
settled in `s` is failed by that call. -/
structure After (s s' : Conn) : Prop where
  receiver : s'.receiver = .returned
  pushed : s'.pushed = s.pushed
  lost_send : s'.lost_send = s.lost_send
  lost_recv : s'.lost_recv = s.lost_recv
  fails : ∀ id < s'.next_id, s.next_id ≤ id ∨ id ∈ s.sender.owned →
    id ∈ s'.sender.owned ∨ (id, Outcome.io) ∈ s'.completed

theorem After.refl {s : Conn} (h : s.receiver = .returned) : After s s :=
  ⟨h, rfl, rfl, rfl, fun id hid ho => .inl (ho.resolve_left (by omega))⟩

theorem recv_of_returned {s : Conn} (h : s.receiver = .returned) (a : RecvAct) :
    s.recv a = none := by
  unfold recv
  rw [h]
  cases a <;> rfl

theorem After.send {s s' s'' : Conn} {a : SendAct} (hl : Leaving s') (ha : After s s')
    (h : SendMove s' a s'') :
    After s s'' := by
  have hact := (hl.quiet ha.receiver).2
  have hc := hl.closed (by rw [ha.receiver]; rfl)
  cases h with
  | call nf h _ =>
    refine { ha with fails := ?_ }
    intro id hid ho
    by_cases hlt : id < s'.next_id
    · have := ha.fails id hlt ho
      rw [h] at this
      exact .inr (this.resolve_left List.not_mem_nil)
    · obtain rfl : id = s'.next_id := by simp only at hid; omega
      exact .inl List.mem_cons_self
  | count h => exact { ha with fails := by have := ha.fails; rwa [h] at this }
  | closed h _ => exact { ha with fails := by have := ha.fails; rwa [h] at this }
  | opened h ho => rw [hc] at ho; cases ho
  | encode_ok h => rw [h] at hact; cases hact
  | encode_err h => rw [h] at hact; cases hact
  | write_ok h => rw [h] at hact; cases hact
  | write_err h => rw [h] at hact; cases hact
  | register h _ => rw [h] at hact; cases hact
  | unthrottle h _ => exact { ha with fails := by have := ha.fails; rwa [h] at this }
  | ping h => exact { ha with fails := by have := ha.fails; rwa [h] at this }
  | @op op ops last h =>
    have hfails := ha.fails
    rw [h, owned_run] at hfails
    cases op with
    | fail j =>
      refine { ha with fails := ?_ }
      intro id hid ho
      rcases hfails id hid ho with hm | hm
      · rcases List.mem_append.1 hm with hm | hm
        · obtain rfl : id = j := by simpa using hm
          exact .inr (List.mem_append_right _ List.mem_cons_self)
        · exact .inl hm
      · exact .inr (List.mem_append_left _ hm)
    | _ => exact { ha with fails := hfails }
  | other pc e h h' _ _ =>
    refine { ha with fails := ?_ }
    have := ha.fails
    rwa [SendPc.free_owned h, ← SendPc.free_owned h'] at this

theorem after_returned {thresholds task_timeout : Nat} {tr : List (Conn × Act)} {s : Conn}
    (h : Run step (new thresholds task_timeout) tr s) (hr : s.receiver = .returned)
    {tr' : List (Conn × Act)} {s' : Conn} (h' : Run step s tr' s') : After s s' := by
  induction h' with
  | nil => exact .refl hr
  | @snoc tr' s₁ a s₂ h₁ ht ih =>
    cases a with
    | snd a => exact ih.send (leaving (h.trans h₁)) (send_cases ht)
    | rcv a =>
      rw [step, recv_of_returned ih.receiver] at ht
      cases ht

theorem step_op {s : Conn} {op : Op} {ops : List Op} {last : Bool}
    (h : s.sender = .run (op :: ops) last) :
    s.step (.snd .next) = some { s.exec op with sender := .run ops last } := by
  simp only [step, send, h]

/-- A call made once `closed` is set: it fails its task and registers nothing. -/
theorem send_task_of_closed {s : Conn} (hs : s.sender = .idle) (hc : s.closed = true)
    (need_flush : Bool) :
    ∃ tr s', follow step s (.snd (.send_task need_flush) :: List.replicate 6 (.snd .next)) =
      some (tr, s') ∧
      s'.sender = .idle ∧ s'.completed = s.completed ++ [(s.next_id, .io)] ∧
      s'.returned = s.returned ++ [(s.next_id, false)] ∧ s'.pushed = s.pushed ∧
      s'.timer = s.timer := by
  have hcall : s.step (.snd (.send_task need_flush)) = some { s with
      sender := .count s.next_id (need_flush || s.inflight + 1 > s.thresholds),
        next_id := s.next_id + 1 } := by
    simp only [step, send, hs]
  have htest {u : Conn} {id : Nat} {nf : Bool} (h : u.sender = .test id nf) (hc : u.closed = true) :
      u.step (.snd .next) = some { u with sender := .run (closed_ops id) false } := by
    simp only [step, send, h, hc, if_true]
  -- `fetch_add`, the test, the three ops of the closed exit, the return
  refine ⟨_, _, follow_cons hcall (follow_cons rfl (follow_cons (htest rfl hc) (follow_cons (step_op rfl)
    (follow_cons (step_op rfl) (follow_cons (step_op rfl) (follow_cons rfl rfl)))))), ?_⟩
  exact ⟨rfl, rfl, rfl, rfl, rfl⟩

/-- Once `receive_loop` has returned, every task a call registered or returned for
is completed exactly once, the timer is empty, and every call that is not settled
yet, or comes later, fails its task with the IO error and registers nothing. -/
theorem shutdown_leaves_no_orphan {thresholds task_timeout : Nat} {tr : List (Conn × Act)}
    {s : Conn} (h : Run step (new thresholds task_timeout) tr s)
    (henc : Meets (fun s a => ¬ encodeFails s a) tr)
    (hfut : Meets (fun s a => givesUp s a = false) tr) (hr : s.receiver = .returned) :
    (∀ id, id ∈ s.pushed ∨ (∃ ok, (id, ok) ∈ s.returned) → (s.completed.map Prod.fst).count id = 1) ∧
      (∀ id < s.next_id, id ∉ s.sender.owned → (s.completed.map Prod.fst).count id = 1) ∧
      s.timer.items = [] ∧
      ∀ tr' s', Run step s tr' s' →
        s'.pushed = s.pushed ∧ s'.timer.items = [] ∧
        (∀ id < s'.next_id, id ∉ s'.sender.owned → (s'.completed.map Prod.fst).count id = 1) ∧
        (∀ id < s'.next_id, s.next_id ≤ id ∨ id ∈ s.sender.owned → id ∉ s'.sender.owned →
          (id, Outcome.io) ∈ s'.completed) ∧
        (s'.sender = .idle → ∀ need_flush, ∃ tr'' s'',
          follow step s' (.snd (.send_task need_flush) :: List.replicate 6 (.snd .next)) =
          some (tr'', s'') ∧
          s''.sender = .idle ∧ s''.completed = s'.completed ++ [(s'.next_id, .io)] ∧
          s''.returned = s'.returned ++ [(s'.next_id, false)] ∧ s''.pushed = s'.pushed ∧
          s''.timer = s'.timer) := by
  have hs := (lost_send_nil_iff h).2 henc
  have hv := (lost_recv_nil_iff h).2 hfut
  have hret := returned_calls h
  obtain ⟨hi, hdone⟩ := completed_of_returned h hr hs hv
  refine ⟨?_, hdone, hi, ?_⟩
  · have hpush : ∀ id ∈ s.pushed, (s.completed.map Prod.fst).count id = 1 := fun id hm =>
      hdone id (hret.pushed_new id hm).1 (hret.pushed_new id hm).2
    rintro id (hm | ⟨_ | _, hm⟩)
    · exact hpush id hm
    · have hio := (hret.err id hm).resolve_right (by simp [hs])
      exact (placed h).completed_once (List.mem_map_of_mem hio)
    · exact hpush id (hret.ok id hm)
  · intro tr' s' h'
    have ha := after_returned h hr h'
    obtain ⟨hi', hdone'⟩ := completed_of_returned (h.trans h') ha.receiver (ha.lost_send.trans hs)
      (ha.lost_recv.trans hv)
    refine ⟨ha.pushed, hi', hdone', ?_, ?_⟩
    · intro id hid hnew ho
      exact (ha.fails id hid hnew).resolve_left ho
    · intro hidle
      exact send_task_of_closed hidle ((leaving (h.trans h')).closed (by rw [ha.receiver]; rfl))

/-- One task is registered, the stream is dropped while it waits for its response,
and the transport then fails. -/
theorem shutdown_leaves_no_orphan_sample :
    ∃ tr s, Run step (new 8 1) tr s ∧ s.receiver = .returned ∧ s.pushed = [0] ∧
    (s.completed.map Prod.fst).count 0 = 1 ∧ s.timer.items = [] := by
  obtain ⟨tr, s, h, hr, hp, henc, hfut⟩ :
      ∃ tr s, follow step (new 8 1) (sampleSend ++ ([.snd .drop, .snd .next, .snd .next,
      .snd .next] : List Act) ++ sampleWake ++
        ([.rcv .next, .rcv .next, .rcv .header_err, .rcv .next, .rcv .next, .rcv .next,
      .rcv .next] : List Act)) = some (tr, s) ∧ s.receiver = .returned ∧ s.pushed = [0] ∧
      (∀ p ∈ tr, p.2 ≠ .snd (.encoded false)) ∧ ∀ p ∈ tr, givesUp p.1 p.2 = false :=
    ⟨_, _, rfl, rfl, rfl, by decide, by decide⟩
  have hs := shutdown_leaves_no_orphan (.of_follow h) henc hfut hr
  exact ⟨tr, s, .of_follow h, hr, hp, hs.1 0 (.inl (by simp [hp])), hs.2.2.1⟩

end OccamsRpc.Conn
