import OccamsRpc.Conn.Inv
/-!
# What a `send_task` call leaves behind

`pending_task_count` counts the tasks between the call's `fetch_add` and the
receive coroutine, plus those an encode failure left behind. A call that returns
`Ok` has registered its task once; one that returns `Err` has failed it once, or
lost it in `send_request`.
-/
open Lib

namespace OccamsRpc.Conn

/-! ## The counter -/

/-- `pending_task_count` counts the tasks on their way to the channel, those in it, and
those that a panicking `send_request` lost. -/
def Counted (s : Conn) : Prop :=
  s.timer.pending_task_count = s.sender.counted + s.timer.pending_tasks.length + s.lost_send.length

theorem new_counted (thresholds task_timeout : Nat) : Counted (new thresholds task_timeout) := rfl

theorem Counted.goto {s : Conn} (hc : Counted s) {c : SendPc} (h : c.counted = s.sender.counted) :
    Counted { s with sender := c } := by
  unfold Counted at *
  rw [hc, h]

theorem Counted.send {s s' : Conn} {a : SendAct} (hc : Counted s) (h : SendMove s a s') :
    Counted s' := by
  cases h with
  | call nf h _ => exact hc.goto (by rw [h]; rfl)
  | count h =>
    unfold Counted at *
    simp only [h, SendPc.counted] at hc ⊢
    omega
  | closed h _ => exact hc.goto (by rw [h]; rfl)
  | opened h _ => exact hc.goto (by rw [h]; rfl)
  | encode_ok h => exact hc.goto (by rw [h]; rfl)
  | @encode_err id nf h =>
    -- the counter keeps the lost task
    have hops : (encode_err_ops id).count .fetch_sub = 0 := rfl
    unfold Counted at *
    simp only [h, hops, SendPc.counted, List.length_append, List.length_singleton] at hc ⊢
    omega
  | write_ok h => exact hc.goto (by rw [h]; rfl)
  | write_err h => exact hc.goto (by rw [h]; rfl)
  | register h _ =>
    unfold Counted at *
    simp only [h, SendPc.counted, ClientTaskTimer.reg_task, List.length_append, List.length_singleton] at hc ⊢
    omega
  | unthrottle h _ => exact hc.goto (by rw [h]; rfl)
  | ping h => exact hc.goto (by rw [h]; rfl)
  | @op op ops last h =>
    unfold Counted at *
    rw [h] at hc
    cases op with
    | fetch_sub =>
      simp only [SendPc.counted, List.count_cons_self] at hc
      simp only [exec, SendPc.counted]
      omega
    | _ => simpa [exec, SendPc.counted, ClientTaskTimer.stop_reg_task] using hc
  | other pc e h h' _ _ => exact hc.goto (by rw [SendPc.free_counted h, SendPc.free_counted h'])

theorem Counted.recv {s s' : Conn} {a : RecvAct} (hc : Counted s) (h : RecvMove s a s') :
    Counted s' := by
  unfold Counted at *
  cases h with
  | tick h hq =>
    obtain ⟨hp, hn, -⟩ := ClientTaskTimer.adjust_task_queue_keeps hq
    simp only [hp, hn]
    exact hc
  | pop h _ =>
    obtain ⟨t, ts, hp, rfl⟩ := ClientTaskTimer.recv_pending_eq h
    simp only [hp, List.length_cons] at hc
    simp only [ClientTaskTimer.got_pending_task]
    omega
  | found _ _ hq =>
    obtain ⟨hp, hn, -⟩ := ClientTaskTimer.remove_task_keeps hq
    simp only [hp, hn]
    exact hc
  | _ => exact hc

theorem counted {thresholds task_timeout : Nat} {tr : List (Conn × Act)} {s : Conn}
    (h : Run step (new thresholds task_timeout) tr s) : Counted s := by
  refine h.inv Counted (new_counted _ _) ?_
  intro s a s' hc hs
  cases a with
  | snd a => exact hc.send (send_cases hs)
  | rcv a => exact hc.recv (recv_cases hs)

/-! ## The task and the result of the call -/

/-- `error_handle` was called with the IO error set, or `send_request` dropped
the task. -/
def Failed (s : Conn) (id : Nat) : Prop := (id, Outcome.io) ∈ s.completed ∨ id ∈ s.lost_send

/-- Each `Err` the rest of a call returns is for a task that has failed by then. -/
def Settles (P : Nat → Prop) : List Op → Prop
  | [] => True
  | .fail id :: ops => Settles (fun j => P j ∨ j = id) ops
  | .ret id ok :: ops => ok = false ∧ P id ∧ Settles P ops
  | _ :: ops => Settles P ops

theorem Settles.mono {ops : List Op} :
    ∀ {P Q : Nat → Prop}, (∀ j, P j → Q j) → Settles P ops → Settles Q ops := by
  induction ops with
  | nil => exact fun _ _ => trivial
  | cons op ops ih =>
    intro P Q hpq h
    cases op with
    | fail id => exact ih (fun j => Or.imp_left (hpq j)) h
    | ret id ok => exact ⟨h.1, hpq _ h.2.1, ih hpq h.2.2⟩
    | _ => exact ih hpq h

theorem settles_of_plain {P : Nat → Prop} {ops : List Op} (h : ops.all Op.plain = true) :
    Settles P ops := by
  induction ops with
  | nil => trivial
  | cons op ops ih =>
    simp only [List.all_cons, Bool.and_eq_true] at h
    cases op with
    | fail id => exact absurd h.1 (by simp [Op.plain])
    | ret id ok => exact absurd h.1 (by simp [Op.plain])
    | _ => exact ih h.2

/-- The statements that the call in progress has left. -/
def SendPc.ops : SendPc → List Op
  | .run ops _ => ops
  | _ => []

theorem SendPc.free_ops {pc : SendPc} (h : pc.free = true) : pc.ops.all Op.plain = true := by
  cases pc <;> first | rfl | exact h

/-- What the returned calls of `send_task` promise: `Ok` for a task that went into the
channel, `Err` for one that `error_handle` got. A call still at work is on its way to one of
them. -/
structure Returned (s : Conn) : Prop where
  ok : ∀ id, (id, true) ∈ s.returned → id ∈ s.pushed
  err : ∀ id, (id, false) ∈ s.returned → Failed s id
  throttle : ∀ id, s.sender = .throttle id → id ∈ s.pushed
  settles : Settles (Failed s) s.sender.ops
  pushed_once : s.pushed.Nodup
  pushed_new : ∀ id ∈ s.pushed, id < s.next_id ∧ id ∉ s.sender.owned
  /-- A task lost by `send_request` is one whose call returns `Err`. -/
  lost : ∀ id ∈ s.lost_send, (id, false) ∈ s.returned ∨ .ret id false ∈ s.sender.ops

theorem new_returned (thresholds task_timeout : Nat) : Returned (new thresholds task_timeout) := by
  constructor <;> simp [new, SendPc.ops, Settles]

/-- Only the call's place changes. -/
theorem Returned.goto {s : Conn} (hr : Returned s) {c : SendPc} (ht : ∀ id, c ≠ .throttle id)
    (ho : c.owned ⊆ s.sender.owned) (hs : Settles (Failed s) c.ops)
    (hl : ∀ id, .ret id false ∉ s.sender.ops) :
    Returned { s with sender := c } :=
  { hr with
    throttle := fun id h => absurd h (ht id)
    settles := hs
    pushed_new := fun id h => ⟨(hr.pushed_new id h).1, fun h' => (hr.pushed_new id h).2 (ho h')⟩
    lost := fun id h => .inl ((hr.lost id h).resolve_right (hl id)) }

/-- A step inside a call that keeps its task. -/
theorem Returned.within {s : Conn} (hr : Returned s) {c : SendPc} (ht : ∀ id, c ≠ .throttle id)
    (ho : c.owned = s.sender.owned) (hs : Settles (Failed s) c.ops) (hl : s.sender.ops = []) :
    Returned { s with sender := c } :=
  hr.goto ht (ho ▸ List.Subset.refl _) hs fun id => by rw [hl]; exact List.not_mem_nil

theorem Returned.op {s : Conn} (hr : Returned s) {op : Op} {ops : List Op} {last : Bool}
    (h : s.sender = .run (op :: ops) last) :
    Returned { s.exec op with sender := .run ops last } := by
  have hset := hr.settles
  have hlost := hr.lost
  have hnew := hr.pushed_new
  rw [h] at hset hlost hnew
  have hlost' (hop : ∀ id, op ≠ .ret id false) :
      ∀ id ∈ s.lost_send, (id, false) ∈ s.returned ∨ .ret id false ∈ ops := by
    intro id hid
    refine (hlost id hid).imp_right fun hm => ?_
    exact (List.mem_cons.1 hm).resolve_left fun he => hop id he.symm
  have hnew' : ∀ id ∈ s.pushed, id < s.next_id ∧ id ∉ (SendPc.run ops last).owned := by
    intro id hid
    refine ⟨(hnew id hid).1, fun hm => (hnew id hid).2 ?_⟩
    rw [owned_run]
    exact List.mem_append_right _ hm
  cases op with
  | fail id =>
    have hmono : ∀ j, Failed s j → (j, Outcome.io) ∈ s.completed ++ [(id, .io)] ∨ j ∈ s.lost_send :=
      fun j => Or.imp_left (List.mem_append_left _)
    refine { hr with
      err := fun j hj => hmono j (hr.err j hj), throttle := by
        rintro _ ⟨⟩, settles := ?_, pushed_new := hnew'
      lost := hlost' (by rintro _ ⟨⟩) }
    refine hset.mono fun j hj => ?_
    rcases hj with hj | rfl
    · exact hmono j hj
    · exact .inl (List.mem_append_right _ List.mem_cons_self)
  | ret id ok =>
    obtain ⟨rfl, hf, hset⟩ := hset
    refine { hr with
      ok := ?_
      err := ?_
      throttle := by rintro _ ⟨⟩
      settles := hset
      pushed_new := hnew'
      lost := ?_ }
    · intro j hj
      rcases List.mem_append.1 hj with hj | hj
      · exact hr.ok j hj
      · simp at hj
    · intro j hj
      rcases List.mem_append.1 hj with hj | hj
      · exact hr.err j hj
      · obtain rfl : j = id := by simpa using hj
        exact hf
    · intro j hj
      rcases hlost j hj with hl | hl
      · exact .inl (List.mem_append_left _ hl)
      · rcases List.mem_cons.1 hl with he | hl
        · cases he
          exact .inl (List.mem_append_right _ (by simp))
        · exact .inr hl
  | _ =>
    exact { hr with
      throttle := by rintro _ ⟨⟩
      settles := hset
      pushed_new := hnew'
      lost := hlost' (by rintro _ ⟨⟩) }

theorem Returned.send {s s' : Conn} {a : SendAct} (hn : Numbered s) (hr : Returned s)
    (h : SendMove s a s') : Returned s' := by
  cases h with
  | call nf h _ =>
    have hl := hr.lost
    rw [h] at hl
    refine { hr with throttle := by rintro _ ⟨⟩, settles := trivial, pushed_new := ?_, lost := hl }
    intro id hid
    have := (hr.pushed_new id hid).1
    refine ⟨Nat.lt_succ_of_lt this, fun hm => ?_⟩
    have : id = s.next_id := by simpa [SendPc.owned] using hm
    omega
  | @count id nf h =>
    exact { hr.within (c := .test id nf) (by rintro _ ⟨⟩) (by rw [h]; rfl) trivial (by rw [h]; rfl) with }
  | closed h _ =>
    exact hr.within (by rintro _ ⟨⟩) (by rw [h]; rfl) ⟨rfl, .inr rfl, trivial⟩ (by rw [h]; rfl)
  | opened h _ => exact hr.within (by rintro _ ⟨⟩) (by rw [h]; rfl) trivial (by rw [h]; rfl)
  | @encode_ok id nf h =>
    exact { hr.within (c := .write ⟨id, s.next_seq⟩ nf) (by rintro _ ⟨⟩) (by rw [h]; rfl) trivial
      (by rw [h]; rfl) with }
  | @encode_err id nf h =>
    refine { hr with err := ?_, throttle := by rintro _ ⟨⟩, settles := ?_, pushed_new := ?_, lost := ?_ }
    · intro j hj
      exact (hr.err j hj).imp_right (List.mem_append_left _)
    · exact ⟨rfl, .inr (List.mem_append_right _ List.mem_cons_self), trivial⟩
    · intro j hj
      exact ⟨(hr.pushed_new j hj).1, List.not_mem_nil⟩
    · intro j hj
      rcases List.mem_append.1 hj with hj | hj
      · refine .inl ((hr.lost j hj).resolve_right ?_)
        rw [h]
        exact List.not_mem_nil
      · obtain rfl : j = id := by simpa using hj
        exact .inr (by simp [SendPc.ops, encode_err_ops])
  | write_ok h => exact hr.within (by rintro _ ⟨⟩) (by rw [h]; rfl) trivial (by rw [h]; rfl)
  | write_err h =>
    exact hr.within (by rintro _ ⟨⟩) (by rw [h]; rfl) ⟨rfl, .inr rfl, trivial⟩ (by rw [h]; rfl)
  | @register t h _ =>
    have hl := hr.lost
    have hnew := hr.pushed_new
    rw [h] at hl hnew
    have ht : t.id ∉ s.pushed := fun hm => (hnew _ hm).2 List.mem_cons_self
    refine { hr with
      ok := ?_, throttle := ?_, settles := trivial, pushed_once := ?_, pushed_new := ?_,
      lost := hl }
    · intro id hid
      exact List.mem_append_left _ (hr.ok id hid)
    · rintro id ⟨⟩
      exact List.mem_append_right _ List.mem_cons_self
    · exact hr.pushed_once.append (List.nodup_singleton _) (by simpa using ht)
    · intro id hid
      refine ⟨?_, List.not_mem_nil⟩
      rcases List.mem_append.1 hid with hid | hid
      · exact (hnew id hid).1
      · obtain rfl : id = t.id := by simpa using hid
        exact (hn.fresh _ (hn.sending t (by rw [h]; rfl)).2.2.2).1
  | @unthrottle id h _ =>
    have hl := hr.lost
    have hnew := hr.pushed_new
    rw [h] at hl hnew
    refine { hr with
      ok := ?_
      err := ?_
      throttle := by rintro _ ⟨⟩
      settles := trivial
      pushed_new := hnew
      lost := ?_ }
    · intro j hj
      rcases List.mem_append.1 hj with hj | hj
      · exact hr.ok j hj
      · obtain rfl : j = id := by simpa using hj
        exact hr.throttle j h
    · intro j hj
      rcases List.mem_append.1 hj with hj | hj
      · exact hr.err j hj
      · simp at hj
    · intro j hj
      exact (hl j hj).imp_left (List.mem_append_left _)
  | ping h =>
    exact { hr.within (c := .ping_write s.next_seq) (by rintro _ ⟨⟩) (by rw [h]; rfl) trivial
      (by rw [h]; rfl) with }
  | op h => exact hr.op h
  | other pc e h h' _ _ =>
    refine { hr.goto (c := pc) ?_ ?_ (settles_of_plain (SendPc.free_ops h')) ?_ with }
    · rintro id rfl
      cases h'
    · rw [SendPc.free_owned h']
      exact List.nil_subset _
    · intro id hm
      have := List.all_eq_true.1 (SendPc.free_ops h) _ hm
      simp [Op.plain] at this

theorem Returned.recv {s s' : Conn} {a : RecvAct} (hr : Returned s) (h : RecvMove s a s') :
    Returned s' := by
  have hf := h.frame
  have hmono : ∀ j, Failed s j → Failed s' j := by
    intro j hj
    unfold Failed
    rw [hf.lost_send]
    exact hj.imp_left fun hm => hf.completed hm
  constructor
  · rw [hf.returned, hf.pushed]; exact hr.ok
  · rw [hf.returned]; exact fun id h => hmono id (hr.err id h)
  · rw [hf.sender, hf.pushed]; exact hr.throttle
  · rw [hf.sender]; exact hr.settles.mono hmono
  · rw [hf.pushed]; exact hr.pushed_once
  · rw [hf.pushed, hf.next_id, hf.sender]; exact hr.pushed_new
  · rw [hf.lost_send, hf.returned, hf.sender]; exact hr.lost

theorem returned_calls {thresholds task_timeout : Nat} {tr : List (Conn × Act)} {s : Conn}
    (h : Run step (new thresholds task_timeout) tr s) : Returned s := by
  refine (h.inv (fun s => Numbered s ∧ Returned s) ⟨new_numbered _ _, new_returned _ _⟩ ?_).2
  rintro s a s' ⟨hn, hr⟩ hs
  refine ⟨hn.step hs, ?_⟩
  cases a with
  | snd a => exact hr.send hn (send_cases hs)
  | rcv a => exact hr.recv (recv_cases hs)

/-! ## Encode failures -/

/-- The step is a `ReqHead::encode` that fails. -/
def encodeFails (_ : Conn) (a : Act) : Prop := a = .snd (.encoded false)

/-- Nothing but an encode failure drops a task on the way to the channel. -/
theorem lost_send_step {s s' : Conn} {a : Act} (h : s.step a = some s') :
    s'.lost_send = s.lost_send ∧ ¬ encodeFails s a ∨ s'.lost_send ≠ [] ∧ encodeFails s a := by
  cases a with
  | rcv a => exact .inl ⟨(recv_cases h).frame.lost_send, nofun⟩
  | snd a =>
    cases send_cases h with
    | encode_err _ => exact .inr ⟨by simp, rfl⟩
    | @op op ops last _ => exact .inl ⟨by cases op <;> rfl, nofun⟩
    | other pc e _ _ _ ha => exact .inl ⟨rfl, fun he => ha false (Act.snd.inj he)⟩
    | _ => exact .inl ⟨rfl, nofun⟩

theorem lost_send_nil_iff {thresholds task_timeout : Nat} {tr : List (Conn × Act)} {s : Conn}
    (h : Run step (new thresholds task_timeout) tr s) :
    s.lost_send = [] ↔ Meets (fun s a => ¬ encodeFails s a) tr := by
  induction h with
  | nil => simp [new]
  | snoc _ ht ih =>
    rw [meets_snoc, ← ih]
    rcases lost_send_step ht with ⟨he, hn⟩ | ⟨he, hn⟩
    · simp [he, hn]
    · simp [he, hn]

/-! ## No task lost, no count leaked -/

/-- The contract of `send_task`. -/
structure CallsSettled (s : Conn) : Prop where
  /-- `Ok`: handed to the channel exactly once. -/
  ok : ∀ id, (id, true) ∈ s.returned → s.pushed.count id = 1
  /-- `Err`: given to `error_handle` with the IO error, and completed only then. -/
  err : ∀ id, (id, false) ∈ s.returned → (id, Outcome.io) ∈ s.completed ∧
    (s.completed.map Prod.fst).count id = 1
  /-- No `send_task` call in progress and an empty channel: the counter is 0. -/
  count : s.sender.free = true → s.timer.pending_tasks = [] → s.timer.pending_task_count = 0

theorem callsSettled_of_lost_nil {thresholds task_timeout : Nat} {tr : List (Conn × Act)} {s : Conn}
    (h : Run step (new thresholds task_timeout) tr s) (hl : s.lost_send = []) : CallsSettled s := by
  have hr := returned_calls h
  constructor
  · intro id hid
    exact List.count_eq_one_of_mem hr.pushed_once (hr.ok id hid)
  · intro id hid
    have hm : (id, Outcome.io) ∈ s.completed := (hr.err id hid).resolve_right (by simp [hl])
    exact ⟨hm, (placed h).completed_once (List.mem_map_of_mem hm)⟩
  · intro hf hp
    have hc := counted h
    unfold Counted at hc
    rw [hc, SendPc.free_counted hf, hp, hl]
    rfl

/-- A run in which no request failed to encode settles every call; once a call in
which one did has returned, it is not settled. -/
theorem send_task_settles {thresholds task_timeout : Nat} {tr : List (Conn × Act)} {s : Conn}
    (h : Run step (new thresholds task_timeout) tr s) :
    (Meets (fun s a => ¬ encodeFails s a) tr → Always CallsSettled tr s) ∧
      (s.sender.free = true → Always CallsSettled tr s → Meets (fun s a => ¬ encodeFails s a) tr) := by
  refine ⟨fun hok => h.always CallsSettled ?_ hok, ?_⟩
  · intro tr s h hok
    exact callsSettled_of_lost_nil h ((lost_send_nil_iff h).2 hok)
  · rintro hf ⟨-, hs⟩
    rw [← lost_send_nil_iff h, List.eq_nil_iff_forall_not_mem]
    intro id hid
    -- its call has returned `Err`, yet it is in one place only, and lost
    have hret : (id, false) ∈ s.returned := by
      refine ((returned_calls h).lost id hid).resolve_right fun hm => ?_
      have := List.all_eq_true.1 (SendPc.free_ops hf) _ hm
      simp [Op.plain] at this
    have hone := (hs.err id hret).2
    have hle := (placed h).count_le id
    have hpos := List.count_pos_iff.2 hid
    rw [count_places] at hle
    omega

theorem send_task_settles_sample :
    ∃ tr s, Run step (new 8 1) tr s ∧ s.returned = [(0, true)] ∧ Always CallsSettled tr s := by
  obtain ⟨tr, s, h, hret, hm⟩ : ∃ tr s, follow step (new 8 1) sampleSend = some (tr, s) ∧
      s.returned = [(0, true)] ∧
      ∀ p ∈ tr, p.2 ≠ .snd (.encoded false) := ⟨_, _, rfl, rfl, by decide⟩
  exact ⟨tr, s, .of_follow h, hret, (send_task_settles (.of_follow h)).1 hm⟩

/-- The request does not encode: the caller gets `Err`, nothing completes the task,
and the counter stays at 1 with the channel empty. -/
theorem send_task_leaks :
    ∃ tr s, Run step (new 8 1) tr s ∧ s.sender = .idle ∧ s.returned = [(0, false)] ∧
    s.completed = [] ∧ s.timer.pending_tasks = [] ∧ s.timer.pending_task_count = 1 := by
  obtain ⟨tr, s, h, hs⟩ :
      ∃ tr s, follow step (new 8 1) [.snd (.send_task true), .snd .next, .snd .next,
      .snd (.encoded false), .snd .next, .snd .next, .snd .next, .snd .next] = some (tr, s) ∧
        s.sender = .idle ∧
      s.returned = [(0, false)] ∧ s.completed = [] ∧ s.timer.pending_tasks = [] ∧
        s.timer.pending_task_count = 1 :=
    ⟨_, _, rfl, rfl, rfl, rfl, rfl, rfl⟩
  exact ⟨tr, s, .of_follow h, hs⟩

end OccamsRpc.Conn
