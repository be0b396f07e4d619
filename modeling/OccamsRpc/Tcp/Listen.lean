import Mathlib.Logic.Function.Basic
import OccamsRpc.Lib.Lists
import OccamsRpc.Lib.Runs
/-!
# Listening on a path

`UnifyListener::bind` of `transport/tcp/src/net.rs` for a Unix path. The socket is bound
under a second name and then linked to the path, after what stood under the two names
was removed; there is no call that does all of it at once. Here are the directory and
all calls of `bind` for one path, each at a system call of its own, and each may fail or
end with its program.
-/
open Lib

namespace OccamsRpc

/-- The name that the socket is bound under, before it is linked to the path. -/
def path_dup (path : String) : String := path ++ "_dup"

/-- Where a call of `bind` is; `l` is its socket. -/
inductive BindPc
  /-- `path.exists()`, and `fs::remove_file(path)` -/
  | path_exists
  | remove_path
  /-- The same for `path_dup`. -/
  | dup_exists
  | remove_dup
  /-- `UnixListener::bind(&path_dup)` -/
  | bind
  | hard_link (l : Nat)
  | set_permissions (l : Nat)
  | from_unix (l : Nat)
  /-- It has returned the listener. -/
  | listening (l : Nat)
  /-- It has returned an error, or the listener is closed. -/
  | closed
  deriving DecidableEq

/-- The call has not returned. -/
def BindPc.working : BindPc → Bool
  | .listening _ | .closed => false
  | _ => true

/-- How many system calls are left. -/
def BindPc.left : BindPc → Nat
  | .path_exists => 8
  | .remove_path => 7
  | .dup_exists => 6
  | .remove_dup => 5
  | .bind => 4
  | .hard_link _ => 3
  | .set_permissions _ => 2
  | .from_unix _ => 1
  | .listening _ | .closed => 0

/-- `names` is the directory: which file a name stands for. Sockets are numbered as they
are bound, `next` is the number of the next one. -/
structure Listeners where
  names : String → Option Nat
  next : Nat
  binds : List BindPc

namespace Listeners

/-- A call of `bind` begins, makes a system call, or its listener goes. -/
inductive Act
  | start
  /-- The system call that bind `i` is at; for `exists()`, `false` is an error. -/
  | call (i : Nat) (ok : Bool)
  /-- The listener is dropped, or the program ends. No name is removed. -/
  | closes (i : Nat)
  deriving DecidableEq

def goto (s : Listeners) (i : Nat) (pc : BindPc) : Listeners := { s with binds := s.binds.set i pc }

/-- A name stands for another file, or for none. -/
def link (s : Listeners) (name : String) (file : Option Nat) : Listeners :=
  { s with names := Function.update s.names name file }

/-- The system calls that succeed: what the directory must be like, and what is done. -/
def run (path : String) (s : Listeners) (i : Nat) : BindPc → Option Listeners
  | .path_exists => some (s.goto i (if (s.names path).isSome then .remove_path else .dup_exists))
  | .remove_path =>
    if (s.names path).isSome then some ((s.link path none).goto i .dup_exists) else none
  | .dup_exists => some (s.goto i (if (s.names (path_dup path)).isSome then .remove_dup else .bind))
  | .remove_dup =>
    if (s.names (path_dup path)).isSome then some ((s.link (path_dup path) none).goto i .bind)
      else none
  | .bind =>
    if (s.names (path_dup path)).isNone then
      some { (s.link (path_dup path) (some s.next)).goto i (.hard_link s.next) with next := s.next + 1 }
    else none
  | .hard_link l =>
    if (s.names (path_dup path)).isSome ∧ (s.names path).isNone then
      some ((s.link path (s.names (path_dup path))).goto i (.set_permissions l))
    else none
  | .set_permissions l => if (s.names path).isSome then some (s.goto i (.from_unix l)) else none
  | .from_unix l => some (s.goto i (.listening l))
  | .listening _ | .closed => none

/-- Those that fail. `exists()` is then `false`, all others return their error. -/
def fails (s : Listeners) (i : Nat) : BindPc → Option Listeners
  | .path_exists => some (s.goto i .dup_exists)
  | .dup_exists => some (s.goto i .bind)
  | pc => if pc.working then some (s.goto i .closed) else none

/-- Calls of `bind` on one path, in any interleaving. -/
def step (path : String) (s : Listeners) : Act → Option Listeners
  | .start => some { s with binds := s.binds ++ [.path_exists] }
  | .call i ok => do
    let pc ← s.binds[i]?
    if ok then s.run path i pc else s.fails i pc
  | .closes i => do
    let pc ← s.binds[i]?
    if pc = .closed then none else some (s.goto i .closed)

/-- A call of `bind` starts when no other is at work, and `exists()` can look. -/
def fine (s : Listeners) : Act → Bool
  | .start => s.binds.all fun pc => !pc.working
  | .call i false => s.binds[i]? ≠ some .path_exists ∧ s.binds[i]? ≠ some .dup_exists
  | _ => true

/-- A directory, and nobody listens. -/
def start (names : String → Option Nat) (next : Nat) : Listeners := ⟨names, next, []⟩

end Listeners

/-! ## The directory at each call -/

theorem path_dup_ne (path : String) : path_dup path ≠ path := by
  intro h
  have hlen := congrArg String.length h
  rw [path_dup, String.length_append] at hlen
  exact absurd hlen (by simp)

/-- What a call of `bind` knows of the directory when no other is at work. -/
def BindPc.At (path : String) (names : String → Option Nat) : BindPc → Prop
  | .path_exists | .closed => True
  | .remove_path => (names path).isSome
  | .dup_exists => names path = none
  | .remove_dup => names path = none ∧ (names (path_dup path)).isSome
  | .bind => names path = none ∧ names (path_dup path) = none
  | .hard_link l => names path = none ∧ names (path_dup path) = some l
  | .set_permissions l | .from_unix l | .listening l =>
    names path = some l ∧ names (path_dup path) = some l

namespace Listeners

/-- Only the last call of `bind` may be at work, and the directory is as it knows. -/
structure Inv (path : String) (names : String → Option Nat) (s : Listeners) : Prop where
  others : ∀ name, name ≠ path → name ≠ path_dup path → s.names name = names name
  last : ∀ i pc, s.binds[i]? = some pc → pc.working = true → i + 1 = s.binds.length
  knows : ∀ i pc, s.binds[i]? = some pc → i + 1 = s.binds.length → pc.At path s.names

variable {path : String} {names : String → Option Nat} {s s' : Listeners} {i : Nat}
  {pc pc' : BindPc}

theorem start_inv (path : String) (names : String → Option Nat) (next : Nat) :
    Inv path names (start names next) where
  others _ _ _ := rfl
  last i pc h := by simp [start] at h
  knows i pc h := by simp [start] at h

/-- A call has gone on, and has changed no name but the two. -/
structure Goes (path : String) (s : Listeners) (i : Nat) (pc : BindPc) (s' : Listeners)
    (pc' : BindPc) : Prop where
  binds : s'.binds = s.binds.set i pc'
  knows : pc'.At path s'.names
  left : pc'.left < pc.left
  opened : pc' ≠ .closed
  others : ∀ name, name ≠ path → name ≠ path_dup path → s'.names name = s.names name

theorem Goes.inv (hg : Goes path s i pc s' pc') (h : Inv path names s) (hi : s.binds[i]? = some pc)
    (hw : pc.working = true) : Inv path names s' where
  others name hne hne' := (hg.others name hne hne').trans (h.others name hne hne')
  last j q hj hq := by
    rw [hg.binds, getElem?_set_some hi] at hj
    rw [hg.binds, List.length_set]
    split at hj
    case isTrue hij => exact hij ▸ h.last i pc hi hw
    case isFalse => exact h.last j q hj hq
  knows j q hj hlast := by
    rw [hg.binds, List.length_set] at hlast
    have hij : i = j := Nat.succ.inj ((h.last i pc hi hw).trans hlast.symm)
    rw [hg.binds, getElem?_set_some hi, if_pos hij] at hj
    cases hj
    exact hg.knows

theorem Goes.goto (hat : pc'.At path s.names) (hleft : pc'.left < pc.left) (hopen : pc' ≠ .closed) :
    Goes path s i pc (s.goto i pc') pc' :=
  ⟨rfl, hat, hleft, hopen, fun _ _ _ => rfl⟩

theorem Goes.link {name : String} (hname : name = path ∨ name = path_dup path) {file : Option Nat}
    {next : Nat} (hat : pc'.At path (Function.update s.names name file))
    (hleft : pc'.left < pc.left) (hopen : pc' ≠ .closed) :
    Goes path s i pc { (s.link name file).goto i pc' with next := next } pc' := by
  refine ⟨rfl, hat, hleft, hopen, fun other hne hne' => Function.update_of_ne ?_ _ _⟩
  rintro rfl
  exact hname.elim hne hne'

theorem Inv.closes (h : Inv path names s) (hi : s.binds[i]? = some pc) :
    Inv path names (s.goto i .closed) where
  others := h.others
  last j q hj hq := by
    simp only [goto, getElem?_set_some hi, List.length_set] at hj ⊢
    split at hj
    · cases hj
      cases hq
    · exact h.last j q hj hq
  knows j q hj hlast := by
    simp only [goto, getElem?_set_some hi, List.length_set] at hj hlast
    split at hj
    · cases hj
      trivial
    · exact h.knows j q hj hlast

theorem Inv.start (h : Inv path names s) (hnone : ∀ pc ∈ s.binds, pc.working = false) :
    Inv path names { s with binds := s.binds ++ [.path_exists] } where
  others := h.others
  last j q hj hq := by
    simp only [List.getElem?_append, List.length_append, List.length_singleton] at hj ⊢
    split at hj
    · rw [hnone q (List.mem_of_getElem? hj)] at hq
      cases hq
    · have hzero : j - s.binds.length = 0 := by
        simpa using (List.getElem?_eq_some_iff.1 hj).1
      omega
  knows j q hj hlast := by
    simp only [List.length_append, List.length_singleton, Nat.add_right_cancel_iff] at hlast
    rw [hlast, List.getElem?_concat_length] at hj
    cases hj
    trivial

theorem run_goes (hat : pc.At path s.names) (h : s.run path i pc = some s') :
    ∃ pc', Goes path s i pc s' pc' := by
  have hne : path ≠ path_dup path := (path_dup_ne path).symm
  cases pc with
  | path_exists =>
    cases h
    split
    case isTrue hp => exact ⟨_, .goto hp (by decide) (by decide)⟩
    case isFalse hp => exact ⟨_, .goto (Option.not_isSome_iff_eq_none.1 hp) (by decide) (by decide)⟩
  | remove_path =>
    obtain ⟨-, ⟨⟩⟩ := Option.ite_none_right_eq_some.1 h
    exact ⟨_, .link (.inl rfl) (Function.update_self ..) (by decide) (by decide)⟩
  | dup_exists =>
    cases h
    split
    case isTrue hd => exact ⟨_, .goto ⟨hat, hd⟩ (by decide) (by decide)⟩
    case isFalse hd =>
      exact ⟨_, .goto ⟨hat, Option.not_isSome_iff_eq_none.1 hd⟩ (by decide) (by decide)⟩
  | remove_dup =>
    obtain ⟨-, ⟨⟩⟩ := Option.ite_none_right_eq_some.1 h
    exact ⟨_, .link (.inr rfl) ⟨(Function.update_of_ne hne ..).trans hat.1, Function.update_self ..⟩
      (by decide) (by decide)⟩
  | bind =>
    obtain ⟨-, ⟨⟩⟩ := Option.ite_none_right_eq_some.1 h
    exact ⟨_, .link (.inr rfl) ⟨(Function.update_of_ne hne ..).trans hat.1, Function.update_self ..⟩
      (Nat.lt_succ_self 3) (by rintro ⟨⟩)⟩
  | hard_link l =>
    obtain ⟨-, ⟨⟩⟩ := Option.ite_none_right_eq_some.1 h
    have hd : Function.update s.names path (s.names (path_dup path)) (path_dup path) = some l :=
      (Function.update_of_ne hne.symm ..).trans hat.2
    exact ⟨_, .link (.inl rfl) ⟨(Function.update_self ..).trans hat.2, hd⟩ (Nat.lt_succ_self 2)
      (by rintro ⟨⟩)⟩
  | set_permissions l =>
    obtain ⟨-, ⟨⟩⟩ := Option.ite_none_right_eq_some.1 h
    exact ⟨_, .goto hat (Nat.lt_succ_self 1) (by rintro ⟨⟩)⟩
  | from_unix l =>
    cases h
    exact ⟨_, .goto hat (Nat.lt_succ_self 0) (by rintro ⟨⟩)⟩
  | listening | closed => cases h

/-- What a call of `bind` knows is what its next system call needs. -/
theorem run_of_at (hat : pc.At path s.names) (hw : pc.working = true) (i : Nat) :
    ∃ s', s.run path i pc = some s' := by
  cases pc with
  | path_exists | dup_exists | from_unix => exact ⟨_, rfl⟩
  | remove_path => exact ⟨_, if_pos hat⟩
  | remove_dup => exact ⟨_, if_pos hat.2⟩
  | bind => exact ⟨_, if_pos (Option.isNone_iff_eq_none.2 hat.2)⟩
  | hard_link l => exact ⟨_, if_pos ⟨by rw [hat.2]; rfl, by rw [hat.1]; rfl⟩⟩
  | set_permissions l => exact ⟨_, if_pos (by rw [hat.1]; rfl)⟩
  | listening | closed => cases hw

theorem Inv.step (h : Inv path names s) {a : Act} (hok : s.fine a = true)
    (hs : s.step path a = some s') :
    Inv path names s' := by
  cases a with
  | start =>
    cases hs
    refine h.start fun pc hpc => ?_
    simpa using List.all_eq_true.1 hok pc hpc
  | closes i =>
    obtain ⟨pc, hi, hs⟩ := Option.bind_eq_some_iff.1 hs
    obtain ⟨-, ⟨⟩⟩ := Option.ite_none_left_eq_some.1 hs
    exact h.closes hi
  | call i ok =>
    obtain ⟨pc, hi, hs⟩ := Option.bind_eq_some_iff.1 hs
    cases ok with
    | true =>
      have hw : pc.working = true := by cases pc <;> first | rfl | cases hs
      obtain ⟨pc', hg⟩ := run_goes (h.knows i pc hi (h.last i pc hi hw)) hs
      exact hg.inv h hi hw
    | false =>
      simp only [fine, decide_eq_true_eq] at hok
      cases pc with
      | path_exists => exact absurd hi hok.1
      | dup_exists => exact absurd hi hok.2
      | listening | closed => cases hs
      | _ =>
        cases hs
        exact h.closes hi

/-- Left to itself, a call of `bind` returns its listener. -/
theorem Inv.returns (h : Inv path names s) (hi : s.binds[i]? = some pc)
    (hlast : i + 1 = s.binds.length) (hopen : pc ≠ .closed) :
    ∃ tr s' l, Run (Listeners.step path) s tr s' ∧ Meets (fun _ a => a = .call i true) tr ∧
      tr.length ≤ pc.left ∧ s'.binds[i]? = some (.listening l) ∧
      (BindPc.listening l).At path s'.names := by
  -- every system call that succeeds leaves fewer
  induction hn : pc.left using Nat.strongRecOn generalizing s pc with
  | ind n ih =>
    have hat := h.knows i pc hi hlast
    by_cases hw : pc.working = true
    · obtain ⟨s₁, hs₁⟩ := run_of_at hat hw i
      obtain ⟨pc₁, hg⟩ := run_goes hat hs₁
      have hstep : s.step path (.call i true) = some s₁ := by
        simp only [Listeners.step, hi, Option.bind_eq_bind, Option.bind_some, if_true, hs₁]
      have hi₁ : s₁.binds[i]? = some pc₁ := by rw [hg.binds, getElem?_set_some hi, if_pos rfl]
      have hlast₁ : i + 1 = s₁.binds.length := by rw [hg.binds, List.length_set, hlast]
      have hleft := hn ▸ hg.left
      obtain ⟨tr, s', l, hrun, hmeets, hlen, hend⟩ :=
        ih _ hleft (hg.inv h hi hw) hi₁ hlast₁ hg.opened rfl
      refine ⟨(s, .call i true) :: tr, s', l, (Run.snoc .nil hstep).trans hrun, ?_, ?_, hend⟩
      · exact List.forall_mem_cons.2 ⟨rfl, hmeets⟩
      · exact Nat.lt_of_le_of_lt hlen hleft
    · cases pc with
      | listening l => exact ⟨[], s, l, .nil, meets_nil _, Nat.zero_le _, hi, hat⟩
      | closed => exact absurd rfl hopen
      | _ => exact absurd rfl hw

/-- As long as calls of `bind` do not overlap and `exists()` can look, whatever other system
call fails and whenever a program ends: no name but the two has changed, and when the last
call has returned its listener, that is what the path names. While it is at work it can
return one, whatever earlier calls have left in the directory. -/
theorem bind_alone {next : Nat} {tr : List (Listeners × Act)}
    (h : Run (Listeners.step path) (start names next) tr s)
    (hok : Meets (fun s a => s.fine a = true) tr) :
    (∀ name, name ≠ path → name ≠ path_dup path → s.names name = names name) ∧
      ∀ i pc, s.binds[i]? = some pc → i + 1 = s.binds.length →
        (∀ l, pc = .listening l → s.names path = some l ∧ s.names (path_dup path) = some l) ∧
        (pc.working = true → ∃ tr' s' l, Run (Listeners.step path) s tr' s' ∧
          Meets (fun _ a => a = .call i true) tr' ∧
          tr'.length ≤ 8 ∧ s'.binds[i]? = some (.listening l) ∧ s'.names path = some l) := by
  have hinv := h.inv_of_meets (Inv path names) (start_inv path names next)
    (fun _ _ _ hi hok hs => hi.step hok hs) hok
  refine ⟨hinv.others, fun i pc hi hlast => ⟨?_, fun hw => ?_⟩⟩
  · rintro l rfl
    exact hinv.knows i _ hi hlast
  · have hopen : pc ≠ .closed := by
      rintro rfl
      cases hw
    have hleft : pc.left ≤ 8 := by cases pc <;> simp [BindPc.left]
    obtain ⟨tr', s', l, hrun, hmeets, hlen, hend, hat⟩ := hinv.returns hi hlast hopen
    exact ⟨tr', s', l, hrun, hmeets, Nat.le_trans hlen hleft, hend, hat.1⟩

/-- A program listens and ends, the next fails to change the permissions of the path, and
a third is about to bind. -/
def sampleBinds : List Act :=
  .start :: (List.replicate 6 (.call 0 true)) ++ [.closes 0] ++ .start :: (List.replicate 6 (.call 1 true)) ++
    [.call 1 false] ++ .start :: (List.replicate 4 (.call 2 true))

theorem bind_alone_sample : ∃ tr s, Run (Listeners.step "/run/rpc") (start (fun _ => none) 0) tr s ∧
    s.binds = [.closed, .closed, .bind] ∧ ∃ tr' s' l, Run (Listeners.step "/run/rpc") s tr' s' ∧
      Meets (fun _ a => a = .call 2 true) tr' ∧ s'.binds[2]? = some (.listening l) ∧
      s'.names "/run/rpc" = some l := by
  have hrun :
      (follow (Listeners.step "/run/rpc") (start (fun _ => none) 0) sampleBinds).map (fun r =>
      (r.1.all fun p => p.1.fine p.2, r.2.binds)) = some (true, [.closed, .closed, .bind]) := by
        decide +kernel
  obtain ⟨⟨tr, s⟩, hf, hend⟩ := Option.map_eq_some_iff.1 hrun
  simp only [Prod.mk.injEq, List.all_eq_true] at hend
  obtain ⟨hm, hb⟩ := hend
  have hr := Run.of_follow hf
  obtain ⟨tr', s', l, hrun', hmeets, -, hl⟩ :=
    ((bind_alone hr hm).2 2 .bind (by rw [hb]; rfl) (by rw [hb]; rfl)).2 rfl
  exact ⟨tr, s, hr, hb, tr', s', l, hrun', hmeets, hl⟩

/-- Two calls at a time may give a listener that nobody finds: the first links the socket
of the second to the path, and the second fails and closes it. -/
theorem overlapping_binds_lose_path : (follow (Listeners.step "/run/rpc") (start (fun _ => none) 0)
    (.start :: .start :: List.replicate 3 (.call 0 true) ++ List.replicate 4 (.call 1 true) ++
      List.replicate 3 (.call 0 true) ++ [.call 1 false])).map (fun r => (r.2.binds, r.2.names "/run/rpc")) =
    some ([.listening 0, .closed], some 1) := by
  decide +kernel

/-- And a call that fails takes the path away from the one who listens. -/
theorem failed_bind_takes_path : (follow (Listeners.step "/run/rpc") (start (fun _ => none) 0)
    (.start :: List.replicate 6 (.call 0 true) ++ .start :: List.replicate 3 (.call 1 true) ++
      [.call 1 false])).map
      (fun r => (r.2.binds, r.2.names "/run/rpc")) = some ([.listening 0, .closed], none) := by
  decide +kernel

end Listeners

end OccamsRpc
