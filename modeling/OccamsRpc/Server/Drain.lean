import OccamsRpc.Server.Remaining
import OccamsRpc.Server.RpcServer
/-!
# A closed server drains

Once `close` has aborted the accept loops and dropped the sender of the close
channel, a reader that waits for a request is cancelled, and what is left to do is
bounded. The call of `close` itself is bounded too: it looks at the connections once a
second until none is left or `server_close_wait` is over.
-/
open Lib

namespace OccamsRpc

/-! ## The server -/

/-- `close` has dropped the sender of the close channel. -/
def ClosePc.past : ClosePc → Bool
  | .count | .test .. | .sleep .. | .done .. => true
  | _ => false

namespace RpcServer

variable {C T R E : Type}

/-- No accept loop is polled without being dropped, and the readers are told to stop. -/
structure Closed (s : RpcServer T R) : Prop where
  aborted : ∀ l ∈ s.listeners, l.aborted = true
  close_tx : s.server_close_tx = false

/-- What `close` has done so far. -/
structure Closing (s : RpcServer T R) : Prop where
  abort : ∀ i, s.closing = .abort i → ∀ j l, j < i → s.listeners[j]? = some l → l.aborted = true
  take : s.closing = .take → ∀ l ∈ s.listeners, l.aborted = true
  past : s.closing.past = true → s.Closed

/-- What is left to do on all the connections, and one step for each listener. -/
def work (s : RpcServer T R) : Nat := (s.conns.map ServedConn.work).sum + s.listening

/-- Something that is left to do is done. -/
def Act.settles : Act T E → Bool
  | .poll _ | .accept_err _ | .pend _ | .idle _ => true
  | .conn _ a => a.settles
  | _ => false

/-- A step that no handler takes. -/
def Act.serves : Act T E → Bool
  | .poll _ | .accept_err _ | .pend _ | .idle _ => true
  | .conn _ a => a.serves
  | _ => false

/-- The bytes that a peer sends. -/
def Act.sent : Act T E → Nat
  | .sends _ bs _ => bs.length
  | _ => 0

/-- Nobody connects, and no port is opened. -/
def Act.quiet : Act T E → Bool
  | .listen _ | .accept .. => false
  | _ => true

variable {facts : ServerFacts} {s s' : RpcServer T R}

theorem Closed.close (h : s.Closed) (hs : s.close facts = some s') : s'.Closed := by
  unfold RpcServer.close at hs
  split at hs
  case h_2 i _ =>
    split at hs <;> cases hs
    · refine ⟨fun l hl => ?_, h.close_tx⟩
      obtain ⟨j, hj⟩ := List.mem_iff_getElem?.1 hl
      rw [List.getElem?_modify] at hj
      obtain ⟨l', hl', rfl⟩ := Option.map_eq_some_iff.1 hj
      split
      · rfl
      · exact h.aborted l' (List.mem_of_getElem? hl')
    · exact ⟨h.aborted, h.close_tx⟩
  case h_3 =>
    cases hs
    exact ⟨h.aborted, rfl⟩
  case h_6 =>
    obtain ⟨-, ⟨⟩⟩ := Option.ite_none_right_eq_some.1 hs
    exact ⟨h.aborted, h.close_tx⟩
  all_goals
    cases hs
    exact ⟨h.aborted, h.close_tx⟩

section
variable [ServerTaskEncode C R] [ServerTaskDecode C T] [ServerTaskDone T R E] {alloc : BufferAlloc}
  {codec : C}
  {a : Act T E}

theorem Closed.step (h : s.Closed) (ha : a.quiet = true) (hs : s.step facts alloc codec a = some s') :
    s'.Closed := by
  cases step_cases hs with
  | listen | accept => cases ha
  | goto pc hl =>
    have haborted := h.aborted _ (List.mem_of_getElem? hl)
    exact ⟨forall_mem_set h.aborted haborted, h.close_tx⟩
  | conn | sends | tick => exact ⟨h.aborted, h.close_tx⟩
  | close h' => exact h.close h'

theorem Closing.close (h : s.Closing) (hs : s.close facts = some s') : s'.Closing := by
  have hclosed := fun hpast => (h.past hpast).close hs
  unfold RpcServer.close at hs
  split at hs
  case h_1 =>
    cases hs
    refine ⟨?_, nofun, nofun⟩
    rintro i ⟨⟩ j l hj
    exact absurd hj (Nat.not_lt_zero j)
  case h_2 i hc =>
    split at hs <;> cases hs
    · refine ⟨?_, nofun, nofun⟩
      rintro _ ⟨⟩ j l hj hl
      rw [List.getElem?_modify] at hl
      obtain ⟨l', hl', rfl⟩ := Option.map_eq_some_iff.1 hl
      split
      · rfl
      · exact h.abort i hc j l' (by omega) hl'
    · refine ⟨nofun, fun _ l hl => ?_, nofun⟩
      obtain ⟨j, hj⟩ := List.mem_iff_getElem?.1 hl
      have hlt : j < s.listeners.length := (List.getElem?_eq_some_iff.1 hj).1
      exact h.abort i hc j l (by omega) hj
  case h_3 hc =>
    cases hs
    exact ⟨nofun, nofun, fun _ => ⟨h.take hc, rfl⟩⟩
  case h_4 hc =>
    cases hs
    exact ⟨nofun, nofun, fun _ => hclosed (by rw [hc]; rfl)⟩
  case h_5 hc =>
    cases hs
    refine ⟨fun _ he => ?_, fun he => ?_, fun _ => hclosed (by rw [hc]; rfl)⟩ <;>
      dsimp only at he <;> split at he <;> cases he
  case h_6 hc =>
    obtain ⟨-, ⟨⟩⟩ := Option.ite_none_right_eq_some.1 hs
    refine ⟨fun _ he => ?_, fun he => ?_, fun _ => hclosed (by rw [hc]; rfl)⟩ <;>
      dsimp only at he <;> split at he <;> cases he
  case h_7 =>
    cases hs
    exact ⟨nofun, nofun, nofun⟩

theorem Closing.step (h : s.Closing) (hs : s.step facts alloc codec a = some s') : s'.Closing := by
  cases step_cases hs with
  | @listen bound hc =>
    have hc' : (s.listen bound).2.closing = .idle := by cases bound <;> exact hc
    refine ⟨fun _ he => ?_, fun he => ?_, fun he => ?_⟩ <;> rw [hc'] at he <;> cases he
  | @goto _ i l pc hl _ _ hact =>
    have hquiet : a.quiet = true := by rcases hact with rfl | rfl | rfl <;> rfl
    refine ⟨fun k hc j l' hj hl' => ?_, fun hc => ?_, fun hpast => (h.past hpast).step hquiet hs⟩
    · have hold : s.listeners[j]? = some l' ∨ j = i ∧ l' = { l with pc := pc } := by
        by_cases he : i = j
        · subst he
          obtain ⟨hlt, -⟩ := List.getElem?_eq_some_iff.1 hl
          simp only [goto, List.getElem?_set_self hlt, Option.some.injEq] at hl'
          exact .inr ⟨rfl, hl'.symm⟩
        · exact .inl (by rwa [goto, List.getElem?_set_ne he] at hl')
      rcases hold with hold | ⟨rfl, rfl⟩
      · exact h.abort k hc j l' hj hold
      · exact h.abort k hc j l hj hl
    · have haborted := h.take hc l (List.mem_of_getElem? hl)
      exact forall_mem_set (h.take hc) haborted
  | accept stream =>
    exact ⟨h.abort, h.take, fun hpast => ⟨(h.past hpast).aborted, (h.past hpast).close_tx⟩⟩
  | conn | sends | tick =>
    exact ⟨h.abort, h.take, fun hpast => ⟨(h.past hpast).aborted, (h.past hpast).close_tx⟩⟩
  | close h' => exact h.close h'

/-- Each step but the work of a handler, the waiting and what `close` does takes away from what
is left; only what a peer sends adds to it. -/
theorem step_work (hc : s.Closed) (hsound : ∀ c ∈ s.conns, c.Sound codec) (ha : a.quiet = true)
    (hs : s.step facts alloc codec a = some s') :
    s'.work + (if a.settles then 1 else 0) ≤ s.work + a.sent := by
  cases step_cases hs with
  | listen | accept => cases ha
  | @goto _ i l pc hl hpc hdrop hact =>
    have hsettles : a.settles = true := by rcases hact with rfl | rfl | rfl <;> rfl
    have hd := hdrop (hc.aborted l (List.mem_of_getElem? hl))
    subst hd
    have hcount := countP_set hl { l with pc := .dropped } Listener.alive
    rw [if_pos (by simpa [Listener.alive] using hpc), if_neg (by simp [Listener.alive])] at hcount
    simp only [work, goto, listening, hsettles, if_true]
    omega
  | @conn _ i c c' b hget hstep hact =>
    have hsettles : a.settles = b.settles := by rcases hact with rfl | ⟨rfl, rfl⟩ <;> rfl
    have hsum := sum_map_set hget c' ServedConn.work
    have hwork := ServedConn.step_work (hsound c (List.mem_of_getElem? hget)).known hstep
    simp only [work, listening, hsettles]
    omega
  | @sends i c bs evs hget =>
    have hsum := sum_map_set hget (c.feed bs evs) ServedConn.work
    have hwork := c.feed_work bs evs
    simp only [work, listening, Act.settles, Act.sent, Bool.false_eq_true, if_false]
    omega
  | close h' =>
    obtain ⟨hconns, -, -, hpcs⟩ := close_rest h'
    rw [work, work, hconns, listening_eq, listening_eq, hpcs]
    exact Nat.le_refl _
  | tick d => exact Nat.le_refl _

/-- A closed server waits for nothing but its handlers. -/
theorem progress (hc : s.Closed) (hcount : s.Counted)
    (hconns : ∀ c ∈ s.conns, c.Sound codec ∧ c.Timed) (halive : 0 < s.get_alive_conn) :
    (∃ c ∈ s.conns, c.handling = true) ∨
      ∃ a : Act T E, a.serves = true ∧ (s.step facts alloc codec a).isSome = true := by
  have hsome : 0 < s.listening ∨ 0 < s.serving := by
    rw [get_alive_conn, hcount] at halive
    omega
  rcases hsome with hl | hserving
  · obtain ⟨l, hmem, hl⟩ := List.countP_pos_iff.1 hl
    obtain ⟨i, hi⟩ := List.mem_iff_getElem?.1 hmem
    right
    cases hpc : l.pc with
    | waiting => exact ⟨.poll i, rfl, by simp [step, hi, hpc]⟩
    | polled => exact ⟨.pend i, rfl, by simp [step, hi, hpc]⟩
    | dropped => simp [Listener.alive, hpc] at hl
  · obtain ⟨c, hmem, hg⟩ := List.countP_pos_iff.1 hserving
    obtain ⟨i, hi⟩ := List.mem_iff_getElem?.1 hmem
    obtain ⟨hsound, htimed⟩ := hconns c hmem
    rcases ServedConn.progress (E := E) hsound htimed (by simpa using hg) with hh | ⟨b, hb, hstep⟩
    · exact .inl ⟨c, hmem, hh⟩
    · exact .inr ⟨.conn i b, hb, by simpa [step, hi, hc.close_tx, step_conn] using hstep⟩

/-- Once `close` has dropped the sender of the close channel, and as long as nobody
connects, a run has at most `work` steps that are not the work of a handler on its
task, and one more for each byte that the peers go on sending; and whenever
`get_alive_conn` is not zero, a handler is at work, or the server has a step to take. -/
theorem close_drains (now : Nat) (hread : facts.read_timeout ≠ 0) (hwrite : facts.write_timeout ≠ 0)
    {tr tr' : List (RpcServer T R × Act T E)} (h : Run (step facts alloc codec) (new now) tr s)
    (hpast : s.closing.past = true) (h' : Run (step facts alloc codec) s tr' s')
    (hquiet : Meets (fun _ a => a.quiet = true) tr') :
    tr'.countP (fun p => p.2.settles) ≤ s.work + (tr'.map fun p => p.2.sent).sum ∧
      (0 < s'.get_alive_conn → (∃ c ∈ s'.conns, c.handling = true) ∨
        ∃ a : Act T E, a.serves = true ∧ (s'.step facts alloc codec a).isSome = true) := by
  have hconns {s s' : RpcServer T R} {a : Act T E} (h : ∀ c ∈ s.conns, c.Sound codec ∧ c.Timed)
      (hs : s.step facts alloc codec a = some s') : ∀ c ∈ s'.conns, c.Sound codec ∧ c.Timed :=
    conns_step (fun _ => ⟨ServedConn.server_conn_sound codec _ _ _ _ _ _, hread, hwrite⟩)
      (fun hc hstep => ⟨hc.1.step hstep, hc.2.step hstep⟩) (fun bs evs hc => ⟨hc.1.feed bs evs, hc.2⟩) h hs
  have hinit : s.Closing ∧ s.Counted ∧ ∀ c ∈ s.conns, c.Sound codec ∧ c.Timed :=
    h.inv (fun s => s.Closing ∧ s.Counted ∧ ∀ c ∈ s.conns, c.Sound codec ∧ c.Timed)
      ⟨⟨nofun, nofun, nofun⟩, rfl, List.forall_mem_nil _⟩
      fun _ _ _ hi hs => ⟨hi.1.step hs, hi.2.1.step hs, hconns hi.2.2 hs⟩
  have hinv {tr' s'} (h' : Run (step facts alloc codec) s tr' s')
      (hq : Meets (fun _ (a : Act T E) => a.quiet = true) tr') :
      s'.Closed ∧ s'.Counted ∧ ∀ c ∈ s'.conns, c.Sound codec ∧ c.Timed :=
    h'.inv_of_meets (fun s => s.Closed ∧ s.Counted ∧ ∀ c ∈ s.conns, c.Sound codec ∧ c.Timed)
      ⟨hinit.1.past hpast, hinit.2⟩
      (fun _ _ _ hi ha hs => ⟨hi.1.step ha hs, hi.2.1.step hs, hconns hi.2.2 hs⟩) hq
  have halways := h'.always _ hinv hquiet
  have hok : Meets (fun s a => (s.Closed ∧ ∀ c ∈ s.conns, c.Sound codec) ∧ a.quiet = true) tr' := fun p hp =>
    ⟨⟨(halways.1 p hp).1, fun c hc => ((halways.1 p hp).2.2 c hc).1⟩, hquiet p hp⟩
  have hcount := h'.countP_le_add work (fun _ _ _ hi hs => step_work hi.1.1 hi.1.2 hi.2 hs) hok
  obtain ⟨hclosed, hcounted, hall⟩ := halways.2
  exact ⟨by omega, progress hclosed hcounted hall⟩

end

/-- After `close` the peer sends one more ping, which is read; then the reader is told to
stop, and the server waits for the handler. -/
def sampleDrain : List (Act ServerReader.SampleTask UInt32) :=
  [.close, .close, .poll 0, .sends 0 (ReqHead.filled 42 0 3 0 0).as_bytes (List.replicate 11 (.chunk 3)),
    .conn 0 .read_req, .conn 0 .read_req, .conn 0 .drop_noti, .conn 0 .drop_reader]

theorem close_drains_late :
    ∃ (tr tr' : List (RpcServer ServerReader.SampleTask ServerReader.SampleTask × Act _ UInt32)) (s s' : _),
      Run (step ⟨⟨1, 1, 16⟩, 5 * ONE_SECOND⟩ (fun n => some (as_usize n)) ()) (new 0) tr s ∧
      Run (step ⟨⟨1, 1, 16⟩, 5 * ONE_SECOND⟩ (fun n => some (as_usize n)) ()) s tr' s' ∧
      5 ≤ s.work + 32 ∧
      s'.get_alive_conn = 1 ∧
      ((∃ c ∈ s'.conns, c.handling = true) ∨ ∃ a : Act ServerReader.SampleTask UInt32,
        a.serves = true ∧
        (s'.step ⟨⟨1, 1, 16⟩, 5 * ONE_SECOND⟩ (fun n => some (as_usize n)) () a).isSome = true) := by
  have hrun : ((follow (step ⟨⟨1, 1, 16⟩, 5 * ONE_SECOND⟩ (fun n => some (as_usize n)) ())
      (new 0 : RpcServer ServerReader.SampleTask ServerReader.SampleTask) (sampleClose.take 15)).bind fun r =>
      (follow (step ⟨⟨1, 1, 16⟩, 5 * ONE_SECOND⟩ (fun n => some (as_usize n)) ()) r.2
        sampleDrain).map fun r' =>
        (r.2.closing.past, r'.1.all fun p => p.2.quiet, r'.1.countP fun p => p.2.settles,
          (r'.1.map fun p => p.2.sent).sum, r'.2.get_alive_conn)) =
            some (true, true, 5, 32, 1) := by
    decide +kernel
  obtain ⟨⟨tr, s⟩, hf, hrest⟩ := Option.bind_eq_some_iff.1 hrun
  obtain ⟨⟨tr', s'⟩, hf', hs⟩ := Option.map_eq_some_iff.1 hrest
  simp only [Prod.mk.injEq, List.all_eq_true] at hs
  obtain ⟨hpast, hquiet, hcount, hsent, halive⟩ := hs
  have hdrains := close_drains 0 (by decide) (by decide) (.of_follow hf) hpast (.of_follow hf') hquiet
  rw [hcount, hsent] at hdrains
  exact ⟨tr, tr', s, s', .of_follow hf, .of_follow hf', hdrains.1, halive,
    hdrains.2 (by rw [halive]; exact Nat.one_pos)⟩

/-! ## A call of `close` -/

/-- The statements that `close` has still before it, at most. -/
def closeLeft (facts : ServerFacts) (s : RpcServer T R) : Nat :=
  match s.closing with
  | .idle | .done .. => 0
  | .abort i => (s.listeners.length - i) + 2 * (facts.server_close_wait / ONE_SECOND) + 6
  | .take => 2 * (facts.server_close_wait / ONE_SECOND) + 5
  | .count => 2 * (facts.server_close_wait / ONE_SECOND) + 4
  | .test _ start_ts => 2 * ((start_ts + facts.server_close_wait - s.now) / ONE_SECOND) + 3
  | .sleep start_ts wake =>
    2 * ((start_ts + facts.server_close_wait + ONE_SECOND - wake) / ONE_SECOND) + 2

/-- A statement of `close`. -/
def Act.closes : Act T E → Bool
  | .close => true
  | _ => false

/-- `close` was called, and will be polled again within a second. -/
structure Called (s : RpcServer T R) : Prop where
  busy : s.closing ≠ .idle
  soon : ∀ start_ts wake, s.closing = .sleep start_ts wake → wake ≤ s.now + ONE_SECOND

theorem close_left (h : s.close facts = some s') (hb : s.closing ≠ .idle)
    (hd : ∀ n start_ts, s.closing ≠ .done n start_ts) :
    s'.closeLeft facts + 1 ≤ s.closeLeft facts := by
  unfold RpcServer.close at h
  split at h
  case h_1 hc => exact absurd hc hb
  case h_2 i hc =>
    split at h <;> cases h
    · simp only [closeLeft, hc, List.length_modify]
      omega
    · simp only [closeLeft, hc]
      omega
  case h_3 hc =>
    cases h
    simp only [closeLeft, hc]
    omega
  case h_4 hc =>
    cases h
    simp only [closeLeft, hc, Nat.add_sub_cancel_left]
    omega
  case h_5 n start hc =>
    cases h
    by_cases hn : n > 0
    · simp only [closeLeft, hc, hn, if_true, Nat.add_sub_add_right]
      omega
    · simp only [closeLeft, hc, hn, if_false]
      omega
  case h_6 start wake hc =>
    obtain ⟨hwake, ⟨⟩⟩ := Option.ite_none_right_eq_some.1 h
    by_cases hw : s.now - start > facts.server_close_wait
    · simp only [closeLeft, hc, hw, if_true]
      omega
    · -- a whole second has passed since the last look
      have hround : (start + facts.server_close_wait - s.now) / ONE_SECOND + 1 ≤
          (start + facts.server_close_wait + ONE_SECOND - wake) / ONE_SECOND := by
        rw [← Nat.add_div_right _ (by decide)]
        exact Nat.div_le_div_right (by omega)
      simp only [closeLeft, hc, hw, if_false]
      omega
  case h_7 hc => exact absurd hc (hd _ _)

theorem Called.close (h : s.close facts = some s') (hd : ∀ n start_ts, s.closing ≠ .done n start_ts) :
    s'.Called := by
  unfold RpcServer.close at h
  split at h
  case h_2 => split at h <;> cases h <;> exact ⟨nofun, nofun⟩
  case h_5 n start _ =>
    cases h
    by_cases hn : n > 0
    · simp only [hn, if_true]
      refine ⟨nofun, ?_⟩
      rintro _ _ ⟨⟩
      exact Nat.le_refl _
    · simp only [hn, if_false]
      exact ⟨nofun, nofun⟩
  case h_6 start wake _ =>
    obtain ⟨-, ⟨⟩⟩ := Option.ite_none_right_eq_some.1 h
    by_cases hw : s.now - start > facts.server_close_wait
    · simp only [hw, if_true]
      exact ⟨nofun, nofun⟩
    · simp only [hw, if_false]
      exact ⟨nofun, nofun⟩
  case h_7 hc => exact absurd hc (hd _ _)
  all_goals
    cases h
    exact ⟨nofun, nofun⟩

section
variable [ServerTaskEncode C R] [ServerTaskDecode C T] [ServerTaskDone T R E] {alloc : BufferAlloc}
  {codec : C}
  {a : Act T E}

theorem Called.step (h : s.Called) (hd : ∀ n start_ts, s.closing ≠ .done n start_ts)
    (hs : s.step facts alloc codec a = some s') : s'.Called := by
  cases step_cases hs with
  | listen hc => exact absurd hc h.busy
  | goto | accept | conn | sends => exact ⟨h.busy, h.soon⟩
  | close h' => exact .close h' hd
  | tick d =>
    exact ⟨h.busy, fun start wake hc => Nat.le_trans (h.soon start wake hc) (by simp only; omega)⟩

theorem step_left (h : s.Called) (hd : ∀ n start_ts, s.closing ≠ .done n start_ts)
    (hs : s.step facts alloc codec a = some s') :
    s'.closeLeft facts + (if a.closes then 1 else 0) ≤ s.closeLeft facts := by
  cases step_cases hs with
  | listen hc => exact absurd hc h.busy
  | @goto _ i l pc _ _ _ hact =>
    have hsame : closeLeft facts (s.goto i l pc) = s.closeLeft facts := by
      simp only [closeLeft, goto, List.length_set]
    rcases hact with rfl | rfl | rfl <;> exact Nat.le_of_eq hsame
  | accept | sends => exact Nat.le_refl _
  | conn b _ _ hact => rcases hact with rfl | ⟨rfl, -⟩ <;> exact Nat.le_refl _
  | close h' => exact close_left h' h.busy hd
  | tick d =>
    show closeLeft facts { s with now := s.now + d } ≤ s.closeLeft facts
    cases hc : s.closing with
    | test n start =>
      have hlater : (start + facts.server_close_wait - (s.now + d)) / ONE_SECOND ≤
          (start + facts.server_close_wait - s.now) / ONE_SECOND := Nat.div_le_div_right (by omega)
      simp only [closeLeft, hc]
      omega
    | idle | abort | take | count | sleep | done => simp only [closeLeft, hc, Nat.le_refl]

/-- A call of `close` returns, whatever the accept loops and the connections do: it takes two
statements for each second of `server_close_wait` and one for each accept loop, and the next of
them is there within a second. -/
theorem close_returns (hcall : s.closing = .abort 0) {tr : List (RpcServer T R × Act T E)}
    (h : Run (step facts alloc codec) s tr s')
    (hcalled : Meets (fun s _ => ∀ n start_ts, s.closing ≠ .done n start_ts) tr) :
    tr.countP (fun p => p.2.closes) ≤
      s.listeners.length + 2 * (facts.server_close_wait / ONE_SECOND) + 6 ∧
      ∃ d ≤ ONE_SECOND, (close facts { s' with now := s'.now + d }).isSome = true := by
  have halways : Always Called tr s' :=
    h.always _ (fun h hd => h.inv_of_meets Called (by constructor <;> simp [hcall])
      (fun _ _ _ hi hd hs => hi.step hd hs) hd) hcalled
  have hok :
      Meets (fun s _ => s.Called ∧ ∀ n start_ts, s.closing ≠ .done n start_ts) tr := fun p hp =>
    ⟨halways.1 p hp, hcalled p hp⟩
  have hcount := h.countP_le (closeLeft facts) (fun _ _ _ hi hs => step_left hi.1 hi.2 hs) hok
  refine ⟨?_, ?_⟩
  · have hfirst : s.closeLeft facts =
        s.listeners.length + 2 * (facts.server_close_wait / ONE_SECOND) + 6 := by
      simp only [closeLeft, hcall, Nat.sub_zero]
    omega
  · cases hc : s'.closing with
    | sleep start wake =>
      have hsoon := halways.2.soon start wake hc
      exact ⟨wake - s'.now, by omega, by simp only [RpcServer.close]; rw [if_pos (by omega)]; rfl⟩
    | abort i =>
      refine ⟨0, Nat.zero_le _, ?_⟩
      simp only [RpcServer.close]
      split <;> rfl
    | idle | take | count | test | done => exact ⟨0, Nat.zero_le _, rfl⟩

end

theorem close_returns_late :
    ∃ (tr : List (RpcServer ServerReader.SampleTask ServerReader.SampleTask × Act _ UInt32))
    (s s' : _), s.closing = .abort 0 ∧ s'.closing = .done 0 0 ∧
      Run (step ⟨⟨1, 1, 16⟩, 5 * ONE_SECOND⟩ (fun n => some (as_usize n)) ()) s tr s' ∧
      7 ≤ s.listeners.length + 2 * (5 * ONE_SECOND / ONE_SECOND) + 6 := by
  have hrun : ((follow (step ⟨⟨1, 1, 16⟩, 5 * ONE_SECOND⟩ (fun n => some (as_usize n)) ())
      (new 0 : RpcServer ServerReader.SampleTask ServerReader.SampleTask) (sampleClose.take 12)).bind fun r =>
      (follow (step ⟨⟨1, 1, 16⟩, 5 * ONE_SECOND⟩ (fun n => some (as_usize n)) ()) r.2
        (sampleClose.drop 12)).map fun r' =>
        (r.2.closing, r'.2.closing, r'.1.all fun p => !(p.1.closing matches .done ..),
          r'.1.countP fun p => p.2.closes)) = some (.abort 0, .done 0 0, true, 7) := by
    decide +kernel
  obtain ⟨⟨_, s⟩, -, hrest⟩ := Option.bind_eq_some_iff.1 hrun
  obtain ⟨⟨tr, s'⟩, hf, hs⟩ := Option.map_eq_some_iff.1 hrest
  simp only [Prod.mk.injEq, List.all_eq_true] at hs
  obtain ⟨hcall, hdone, hcalled, hcount⟩ := hs
  have hreturns := close_returns hcall (.of_follow hf) fun p hp n start hc => by
    simpa [hc] using hcalled p hp
  rw [hcount] at hreturns
  exact ⟨tr, s, s', hcall, hdone, .of_follow hf, hreturns.1⟩

end RpcServer

end OccamsRpc
