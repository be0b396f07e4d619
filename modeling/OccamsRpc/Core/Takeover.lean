import OccamsRpc.Lib.Lists
import OccamsRpc.Lib.Runs
/-!
# From the old program to the new one

`ready` and `restart` of `core/src/graceful.rs`, for a program and all that replace it.
A restart signal makes a program spawn its successor and poll for the file in which the
successor says that it has started; it leaves when the file is there, and after
`restart_timeout` if the successor has at least not exited. Programs are numbered as they
are spawned; what the operating system gives them is a pid.
-/
open Lib

namespace OccamsRpc

/-- What `GracefulServer::new` and `ready` are called with, the same in every program. -/
structure RestartConfig where
  restart_timeout : Nat
  close_signals : List Int32
  restart_signal : Option Int32

/-- The signals that `Signals` gives. -/
def RestartConfig.sigs (c : RestartConfig) : List Int32 :=
  match c.restart_signal with
  | some sig => if sig ∈ c.close_signals then c.close_signals else c.close_signals ++ [sig]
  | none => c.close_signals

/-- A spawned process: which program it is, and `child.id()`. -/
structure Child where
  program : Nat
  pid : Nat
  deriving DecidableEq

/-- Where a program is in `ready`, the signals that follow it, and `restart`. -/
inductive ReadyPc
  /-- Before `ready`, and in its `write_pid_file`. -/
  | starting
  | write_child_pid_file
  | signals
  /-- `restart`, up to `cmd.spawn()`. -/
  | spawn
  /-- The loop of `restart`: its condition, the open of the file, and the sleep. -/
  | test (child : Child) (start_ts : Nat)
  | open_file (child : Child) (start_ts : Nat)
  | sleep (child : Child) (start_ts wake_ts : Nat)
  | remove_file (child : Child)
  | try_wait (child : Child)
  | exit_closure
  | returned
  /-- The process is gone. -/
  | exited
  deriving DecidableEq

/-- The process that `restart` has spawned. -/
def ReadyPc.child : ReadyPc → Option Child
  | .test child _ | .open_file child _ | .sleep child .. | .remove_file child | .try_wait child =>
    some child
  | _ => none

/-- `recovered` is whether `_GRACEFUL_RESTART` was set; `started` records that the pid
file was written. -/
structure Program where
  pid : Nat
  recovered : Bool
  pc : ReadyPc
  started : Bool

/-- It is in `ready`, and has not begun to leave. -/
def Program.serves (p : Program) : Bool :=
  match p.pc with
  | .starting | .exit_closure | .returned | .exited => false
  | _ => true

/-- `files` are the pids that a file `<prog_name>_<pid>` is there for. -/
structure Programs where
  programs : List Program
  pid_file : Option Nat
  files : List Nat
  now : Nat

namespace Programs

/-- The first program, with the files that others have left in `run_dir`. -/
def start (pid : Nat) (pid_file : Option Nat) (files : List Nat) : Programs :=
  ⟨[⟨pid, false, .starting, false⟩], pid_file, files, 0⟩

/-- A step of one program, with the answer of the system to it. -/
inductive Act
  /-- The write of a file has returned: the pid file was written, or the file for the
  parent is there now. -/
  | wrote (ok : Bool)
  | signal (sig : Int32)
  | spawned (pid : Option Nat)
  /-- `File::open` of the child's file, which may fail although the file is there. -/
  | opened (ok : Bool)
  | removed (ok : Bool)
  /-- `try_wait` has returned, with an error or not. -/
  | waited (ok : Bool)
  | next
  /-- The process ends, wherever it is. -/
  | dies
  deriving DecidableEq

def goto (s : Programs) (i : Nat) (p : Program) (pc : ReadyPc) : Programs :=
  { s with programs := s.programs.set i { p with pc := pc } }

/-- There is no such program, or it has exited. -/
def gone (s : Programs) (i : Nat) : Bool := s.programs[i]?.all (·.pc = .exited)

/-- Nobody has the pid, and nobody waits for a process that had it. -/
def free (s : Programs) (pid : Nat) : Bool :=
  s.programs.all fun q => (q.pc = .exited || q.pid ≠ pid) && q.pc.child.all (·.pid ≠ pid)

/-- What the program `i` does next. -/
def run (c : RestartConfig) (s : Programs) (i : Nat) (p : Program) : Act → Option Programs
  | .wrote ok =>
    match p.pc with
    | .starting =>
      if ok then
        some { s.goto i { p with started := true }
          (if p.recovered then .write_child_pid_file else .signals) with
          pid_file := some p.pid }
      else some (s.goto i p .returned)
    | .write_child_pid_file =>
      some { s.goto i p .signals with files := if ok then p.pid :: s.files else s.files }
    | _ => none
  | .signal sig =>
    match p.pc with
    | .signals =>
      if sig ∈ c.sigs
        then some (s.goto i p (if c.restart_signal = some sig then .spawn else .exit_closure))
        else none
    | _ => none
  | .spawned none =>
    match p.pc with
    | .spawn => some (s.goto i p .signals)
    | _ => none
  | .spawned (some pid) =>
    match p.pc with
    | .spawn =>
      if s.free pid then
        let s' := s.goto i p (.test ⟨s.programs.length, pid⟩ s.now)
        some { s' with programs := s'.programs ++ [⟨pid, true, .starting, false⟩] }
      else none
    | _ => none
  | .next =>
    match p.pc with
    | .test child start_ts =>
      some (s.goto i p (if s.now - start_ts ≤ c.restart_timeout then .open_file child start_ts
        else .try_wait child))
    | .sleep child start_ts wake_ts =>
      if wake_ts ≤ s.now then some (s.goto i p (.test child start_ts)) else none
    | .exit_closure => some (s.goto i p .returned)
    | .returned => some (s.goto i p .exited)
    | _ => none
  | .opened true =>
    match p.pc with
    | .open_file child _ =>
      if child.pid ∈ s.files then some (s.goto i p (.remove_file child)) else none
    | _ => none
  | .opened false =>
    match p.pc with
    | .open_file child start_ts => some (s.goto i p (.sleep child start_ts (s.now + 1)))
    | _ => none
  | .removed ok =>
    match p.pc with
    | .remove_file child =>
      some { s.goto i p .exit_closure with files := if ok then s.files.filter (· ≠ child.pid) else s.files }
    | _ => none
  | .waited ok =>
    match p.pc with
    -- the error is that the child has exited, or that of `try_wait`
    | .try_wait child =>
      some (s.goto i p (if ok && !s.gone child.program then .exit_closure else .signals))
    | _ => none
  | .dies => if p.pc = .exited then none else some (s.goto i p .exited)

/-- The program `i` moves, or time passes. -/
inductive Event
  | program (i : Nat) (a : Act)
  | passes (n : Nat)
  deriving DecidableEq

/-- Parents and children run side by side, and time passes. -/
def step (c : RestartConfig) (s : Programs) : Event → Option Programs
  | .program i a => s.programs[i]?.bind fun p => s.run c i p a
  | .passes n => some { s with now := s.now + n }

/-- Whether the environment is fair to the program `i`: it is not told to close and does
not die while it serves, there is no file yet with the pid that its child gets, and a
child that is found to be running at the end of `restart_timeout` has started. -/
def fair (c : RestartConfig) (s : Programs) (i : Nat) (a : Act) : Bool :=
  match s.programs[i]?, a with
  | some p, .dies => !p.serves
  | some _, .signal sig => c.restart_signal = some sig
  | some _, .spawned (some pid) => pid ∉ s.files
  | some p, .waited true =>
    p.pc.child.all fun child => s.gone child.program || s.programs[child.program]?.any (·.started)
  | _, _ => true

/-- Whether a step is one that the theorems are about; time may always pass. -/
def fine (c : RestartConfig) (s : Programs) : Event → Bool
  | .program i a => s.fair c i a
  | .passes _ => true

/-! ## What a step can do -/

/-- The program `i` becomes `p'`. -/
def replace (s : Programs) (i : Nat) (p' : Program) (pid_file : Option Nat) (files : List Nat) :
    Programs :=
  { s with programs := s.programs.set i p', pid_file := pid_file, files := files }

/-- What a step of program `i` can do to the files and to the others. -/
inductive Move (c : RestartConfig) (s : Programs) (i : Nat) (p : Program) : Act → Programs → Prop
  | starts (pc : ReadyPc) (h : p.pc = .starting)
    (hpc : pc = .write_child_pid_file ∨ pc = .signals) :
    Move c s i p (.wrote true) (s.replace i { p with pc := pc, started := true } (some p.pid) s.files)
  | notifies (ok : Bool) (h : p.pc = .write_child_pid_file) :
    Move c s i p (.wrote ok)
      (s.replace i { p with pc := .signals } s.pid_file (if ok then p.pid :: s.files else s.files))
  | spawns (pid : Nat) (h : p.pc = .spawn) (hfree : s.free pid = true) :
    Move c s i p (.spawned (some pid))
      (replace { s with programs := s.programs ++ [⟨pid, true, .starting, false⟩] } i
        { p with pc := .test ⟨s.programs.length, pid⟩ s.now } s.pid_file s.files)
  | finds {child start_ts} (h : p.pc = .open_file child start_ts) (hf : child.pid ∈ s.files) :
    Move c s i p (.opened true) (s.replace i { p with pc := .remove_file child } s.pid_file s.files)
  | leaves {child} (files : List Nat) (ok : Bool) (h : p.pc = .remove_file child)
    (hf : files ⊆ s.files) :
    Move c s i p (.removed ok) (s.replace i { p with pc := .exit_closure } s.pid_file files)
  | gives_up {child} (h : p.pc = .try_wait child) (hg : s.gone child.program = false) :
    Move c s i p (.waited true) (s.replace i { p with pc := .exit_closure } s.pid_file s.files)
  | closes {sig} (h : p.pc = .signals) (hsig : c.restart_signal ≠ some sig) :
    Move c s i p (.signal sig) (s.replace i { p with pc := .exit_closure } s.pid_file s.files)
  | dies (h : p.pc ≠ .exited) :
    Move c s i p .dies (s.replace i { p with pc := .exited } s.pid_file s.files)
  /-- All else leaves it serving, or not. -/
  | other {a} (pc : ReadyPc) (h : p.pc ≠ .exited)
    (hs : Program.serves { p with pc := pc } = p.serves)
    (hc : pc.child = none ∨ pc.child = p.pc.child) (hr : ∀ child, pc ≠ .remove_file child) :
    Move c s i p a (s.replace i { p with pc := pc } s.pid_file s.files)

theorem run_cases {c : RestartConfig} {s s' : Programs} {i : Nat} {p : Program} {a : Act}
    (hp : s.programs[i]? = some p) (h : s.run c i p a = some s') : Move c s i p a s' := by
  -- the program goes on serving, or goes on with its exit
  have hother {pc pc' : ReadyPc} {a : Act} (hpc : p.pc = pc) (hne : pc ≠ .exited)
      (hs : Program.serves ⟨p.pid, p.recovered, pc', p.started⟩ =
        Program.serves ⟨p.pid, p.recovered, pc, p.started⟩)
      (hc : pc'.child = none ∨ pc'.child = pc.child) (hr : ∀ child, pc' ≠ .remove_file child) :
      Move c s i p a (s.goto i p pc') := by
    subst hpc
    exact .other pc' hne hs hc hr
  have hlt : i < s.programs.length := (List.getElem?_eq_some_iff.1 hp).1
  cases a with
  | wrote ok =>
    simp only [run] at h
    split at h
    case h_1 hpc =>
      split at h <;> cases h
      case isTrue.refl hok =>
        subst hok
        refine .starts _ hpc ?_
        split
        · exact .inl rfl
        · exact .inr rfl
      case isFalse.refl => exact hother hpc nofun rfl (.inl rfl) nofun
    case h_2 hpc =>
      cases h
      exact .notifies ok hpc
    case h_3 => cases h
  | signal sig =>
    simp only [run] at h
    split at h
    case h_1 hpc =>
      obtain ⟨-, ⟨⟩⟩ := Option.ite_none_right_eq_some.1 h
      split
      · exact hother hpc nofun rfl (.inl rfl) nofun
      · exact .closes hpc ‹_›
    case h_2 => cases h
  | spawned pid =>
    cases pid with
    | none =>
      simp only [run] at h
      split at h
      case h_1 hpc =>
        cases h
        exact hother hpc nofun rfl (.inl rfl) nofun
      case h_2 => cases h
    | some pid =>
      simp only [run] at h
      split at h
      case h_1 hpc =>
        obtain ⟨hfree, ⟨⟩⟩ := Option.ite_none_right_eq_some.1 h
        have hm := Move.spawns (c := c) (i := i) pid hpc hfree
        rw [replace, List.set_append_left _ _ hlt] at hm
        exact hm
      case h_2 => cases h
  | next =>
    simp only [run] at h
    split at h
    case h_1 child start_ts hpc =>
      cases h
      split <;> exact hother hpc nofun rfl (.inr rfl) nofun
    case h_2 child start_ts wake_ts hpc =>
      obtain ⟨-, ⟨⟩⟩ := Option.ite_none_right_eq_some.1 h
      exact hother hpc nofun rfl (.inr rfl) nofun
    case h_3 hpc | h_4 hpc =>
      cases h
      exact hother hpc nofun rfl (.inl rfl) nofun
    case h_5 => cases h
  | opened ok =>
    cases ok with
    | true =>
      simp only [run] at h
      split at h
      case h_1 hpc =>
        obtain ⟨hf, ⟨⟩⟩ := Option.ite_none_right_eq_some.1 h
        exact .finds hpc hf
      case h_2 => cases h
    | false =>
      simp only [run] at h
      split at h
      case h_1 hpc =>
        cases h
        exact hother hpc nofun rfl (.inr rfl) nofun
      case h_2 => cases h
  | removed ok =>
    simp only [run] at h
    split at h
    case h_1 child hpc =>
      cases h
      refine .leaves _ ok hpc ?_
      split
      · exact List.filter_subset_self _
      · exact List.Subset.refl _
    case h_2 => cases h
  | waited ok =>
    simp only [run] at h
    split at h
    case h_1 child hpc =>
      cases h
      split
      case isTrue hok =>
        simp only [Bool.and_eq_true, Bool.not_eq_true'] at hok
        obtain ⟨rfl, hg⟩ := hok
        exact .gives_up hpc hg
      case isFalse => exact hother hpc nofun rfl (.inl rfl) nofun
    case h_2 => cases h
  | dies =>
    obtain ⟨hne, ⟨⟩⟩ := Option.ite_none_left_eq_some.1 h
    exact .dies hne

/-! ## The invariant -/

/-- A program that is not older than `i` serves. -/
def Served (s : Programs) (i : Nat) : Prop :=
  ∃ (j : Nat) (q : Program), i ≤ j ∧ s.programs[j]? = some q ∧ q.serves = true

/-- The child of `i` has a pid of its own, and wrote the file of that name if it is there. -/
structure Awaits (s : Programs) (i : Nat) (child : Child) : Prop where
  younger : i < child.program
  exists_program : ∃ q : Program, s.programs[child.program]? = some q ∧ q.pid = child.pid ∧
    (child.pid ∈ s.files → q.started = true)
  unique : ∀ (j : Nat) (q : Program), j ≠ child.program → s.programs[j]? = some q → q.pc ≠ .exited →
    q.pid ≠ child.pid

/-- Who has started serves, or one that it has spawned does, directly or not; and a program
that has found the file of its child has a child that has started. -/
structure Inv (s : Programs) : Prop where
  started : ∀ p ∈ s.programs, p.serves = true → p.started = true
  served : ∀ (i : Nat) (p : Program), s.programs[i]? = some p → p.started = true → s.Served i
  awaits : ∀ (i : Nat) (p : Program) (child : Child), s.programs[i]? = some p →
    p.pc.child = some child → s.Awaits i child
  found : ∀ (i : Nat) (p : Program) (child : Child), s.programs[i]? = some p →
    p.pc = .remove_file child →
    ∃ q : Program, s.programs[child.program]? = some q ∧ q.started = true

variable {s s' : Programs} {i : Nat} {p p' : Program}

theorem start_inv (pid : Nat) (pid_file : Option Nat) (files : List Nat) :
    Inv (start pid pid_file files) := by
  have hone {i : Nat} {p : Program} (hp : (start pid pid_file files).programs[i]? = some p) :
      p = ⟨pid, false, .starting, false⟩ := List.mem_singleton.1 (List.mem_of_getElem? hp)
  constructor
  · intro p hp hs
    cases List.mem_singleton.1 hp
    cases hs
  · intro i p hp hs
    cases hone hp
    cases hs
  · intro i p child hp hc
    cases hone hp
    cases hc
  · intro i p child hp hc
    cases hone hp
    cases hc

/-- Who has started and does not serve is followed by one who does. -/
theorem Inv.followed (h : Inv s) (hp : s.programs[i]? = some p) (hs : p.started = true)
    (hn : p.serves = false) :
    s.Served (i + 1) := by
  obtain ⟨j, q, hle, hq, hserves⟩ := h.served i p hp hs
  refine ⟨j, q, Nat.lt_of_le_of_ne hle ?_, hq, hserves⟩
  rintro rfl
  cases hp.symm.trans hq
  exact absurd (hn.symm.trans hserves) nofun

/-- The child of a program that serves or did is followed, or serves itself. -/
theorem Inv.child_serves (h : Inv s) {child : Child} (ha : s.Awaits i child) {q : Program}
    (hq : s.programs[child.program]? = some q) (hs : q.started = true) : s.Served (i + 1) := by
  obtain ⟨j, r, hle, hr⟩ := h.served _ q hq hs
  exact ⟨j, r, Nat.le_trans ha.younger hle, hr⟩

/-- One program changes, and is followed if it stops to serve. -/
theorem Inv.replace (h : Inv s) (hp : s.programs[i]? = some p) (hne : p.pc ≠ .exited) (p' : Program)
    (hp' : p' = { p with pc := p'.pc, started := p'.started })
    (hstarted : p.started = true → p'.started = true)
    (hserves : p'.serves = true → p'.started = true)
    (hserved : p'.started = true → p'.serves = true ∨ s.Served (i + 1))
    (hchild : ∀ child, p'.pc.child = some child → s.Awaits i child)
    (hfound : ∀ child, p'.pc = .remove_file child → child.pid ∈ s.files) (pid_file : Option Nat)
    {files : List Nat} (hfiles : ∀ pid ∈ files, pid ∈ s.files ∨ pid = p.pid ∧ p'.started = true) :
    Inv (s.replace i p' pid_file files) := by
  have hpid : p'.pid = p.pid := by rw [hp']
  have hget (j : Nat) :
      (s.replace i p' pid_file files).programs[j]? = if i = j then some p' else s.programs[j]? :=
    getElem?_set_some hp p' j
  have hself : s.Served (i + 1) → (s.replace i p' pid_file files).Served (i + 1) := by
    rintro ⟨j, q, hle, hq⟩
    refine ⟨j, q, hle, ?_⟩
    rwa [hget, if_neg (by omega)]
  have hat (hs : p'.started = true) : (s.replace i p' pid_file files).Served i := by
    rcases hserved hs with hs | hs
    · exact ⟨i, p', Nat.le_refl i, by rw [hget, if_pos rfl], hs⟩
    · obtain ⟨j, q, hle, hq⟩ := hself hs
      exact ⟨j, q, by omega, hq⟩
  have hawaits {k : Nat} {child : Child} (ha : s.Awaits k child) :
      (s.replace i p' pid_file files).Awaits k child := by
    obtain ⟨hlt, ⟨q, hq, hqpid, hqf⟩, hu⟩ := ha
    have hf (hm : child.pid ∈ files) (hne' : i ≠ child.program) : child.pid ∈ s.files := by
      rcases hfiles _ hm with hm | ⟨hm, -⟩
      · exact hm
      · exact absurd hm.symm (hu i p hne' hp hne)
    refine ⟨hlt, ?_, fun j r hj hr hre => ?_⟩
    · rw [hget]
      split
      case isTrue he =>
        subst he
        cases hp.symm.trans hq
        refine ⟨p', rfl, hpid.trans hqpid, fun hm => ?_⟩
        rcases hfiles _ hm with hm | ⟨-, hm⟩
        · exact hstarted (hqf hm)
        · exact hm
      case isFalse he => exact ⟨q, hq, hqpid, fun hm => hqf (hf hm he)⟩
    · rw [hget] at hr
      split at hr
      case isTrue he =>
        cases hr
        subst he
        rw [hpid]
        exact hu i p hj hp hne
      case isFalse => exact hu j r hj hr hre
  constructor
  · intro q hq hs
    rcases List.mem_or_eq_of_mem_set hq with hq | rfl
    · exact h.started q hq hs
    · exact hserves hs
  · intro k q hq hs
    rw [hget] at hq
    split at hq
    case isTrue he =>
      cases hq
      exact he ▸ hat hs
    case isFalse =>
      obtain ⟨j, r, hle, hr, hrs⟩ := h.served k q hq hs
      by_cases he : i = j
      · subst he
        cases hp.symm.trans hr
        obtain ⟨j, r, hle', hr⟩ := hat (hstarted (h.started p (List.mem_of_getElem? hp) hrs))
        exact ⟨j, r, Nat.le_trans hle hle', hr⟩
      · exact ⟨j, r, hle, by rw [hget, if_neg he]; exact hr, hrs⟩
  · intro k q child hq hc
    rw [hget] at hq
    split at hq
    case isTrue he =>
      cases hq
      exact he ▸ hawaits (hchild child hc)
    case isFalse => exact hawaits (h.awaits k q child hq hc)
  · intro k q child hq hc
    -- the child of the others is not a program that has to be started anew
    have hold (hr : ∃ r : Program, s.programs[child.program]? = some r ∧ r.started = true) :
        ∃ r : Program, (s.replace i p' pid_file files).programs[child.program]? = some r ∧
          r.started = true := by
      obtain ⟨r, hr, hrs⟩ := hr
      rw [hget]
      split
      case isTrue he =>
        subst he
        cases hp.symm.trans hr
        exact ⟨p', rfl, hstarted hrs⟩
      case isFalse => exact ⟨r, hr, hrs⟩
    rw [hget] at hq
    split at hq
    case isTrue he =>
      cases hq
      obtain ⟨-, ⟨r, hr, -, hrs⟩, -⟩ := hchild child (by rw [hc]; rfl)
      exact hold ⟨r, hr, hrs (hfound child hc)⟩
    case isFalse => exact hold (h.found k q child hq hc)

/-- A program is spawned, with a pid that was free and that no file names. -/
theorem Inv.spawn (h : Inv s) {pid : Nat} (hfree : s.free pid = true) :
    Inv { s with programs := s.programs ++ [⟨pid, true, .starting, false⟩] } := by
  have hold {j : Nat} {q : Program}
      (hq : (s.programs ++ [⟨pid, true, .starting, false⟩])[j]? = some q) :
      s.programs[j]? = some q ∨ q = ⟨pid, true, .starting, false⟩ := by
    rw [List.getElem?_append] at hq
    split at hq
    · exact .inl hq
    · exact .inr (List.mem_singleton.1 (List.mem_of_getElem? hq))
  have hnew {j : Nat} {q : Program} (hq : s.programs[j]? = some q) :
      (s.programs ++ [⟨pid, true, .starting, false⟩])[j]? = some q := by
    rw [List.getElem?_append_left (List.getElem?_eq_some_iff.1 hq).1]
    exact hq
  simp only [free, List.all_eq_true, Bool.and_eq_true] at hfree
  constructor
  · exact forall_mem_concat h.started nofun
  · intro i p hp hs
    rcases hold hp with hp | rfl
    · obtain ⟨j, q, hle, hq, hqs⟩ := h.served i p hp hs
      exact ⟨j, q, hle, hnew hq, hqs⟩
    · cases hs
  · intro i p child hp hc
    rcases hold hp with hp | rfl
    · obtain ⟨hlt, ⟨q, hq, hqpid, hqf⟩, hu⟩ := h.awaits i p child hp hc
      refine ⟨hlt, ⟨q, hnew hq, hqpid, hqf⟩, fun j r hj hr hre => ?_⟩
      rcases hold hr with hr | rfl
      · exact hu j r hj hr hre
      · have hch := (hfree p (List.mem_of_getElem? hp)).2
        rw [hc] at hch
        exact (of_decide_eq_true hch).symm
    · cases hc
  · intro i p child hp hc
    rcases hold hp with hp | rfl
    · obtain ⟨q, hq, hqs⟩ := h.found i p child hp hc
      exact ⟨q, hnew hq, hqs⟩
    · cases hc

theorem Inv.move (h : Inv s) {c : RestartConfig} {a : Act} (hp : s.programs[i]? = some p)
    (hok : s.fair c i a = true) (hm : Move c s i p a s') : Inv s' := by
  have hstarted := h.started p (List.mem_of_getElem? hp)
  have hwaits {child : Child} (hc : p.pc.child = some child) :
      s.Awaits i child := h.awaits i p child hp hc
  -- it goes on to serve, or is followed
  have hgoto (pc : ReadyPc) (hne : p.pc ≠ .exited)
      (hs : p.started = true → Program.serves { p with pc := pc } = true ∨ s.Served (i + 1))
      (hserves : Program.serves { p with pc := pc } = true → p.serves = true)
      (hchild : ∀ child, pc.child = some child → p.pc.child = some child)
      (hfound : ∀ child, pc = .remove_file child → child.pid ∈ s.files) {files : List Nat}
      (hfiles : files ⊆ s.files) :
      Inv (s.replace i { p with pc := pc } s.pid_file files) :=
    h.replace hp hne { p with pc := pc } rfl id (fun hs => hstarted (hserves hs)) hs
      (fun child hc => hwaits (hchild child hc)) hfound s.pid_file fun _ hf => .inl (hfiles hf)
  have hleave {child : Child} (hc : p.pc.child = some child) {q : Program}
      (hq : s.programs[child.program]? = some q)
      (hqs : q.started = true) {files : List Nat} (hfiles : files ⊆ s.files) :
      Inv (s.replace i { p with pc := .exit_closure } s.pid_file files) :=
    hgoto .exit_closure (by rintro he; rw [he] at hc; cases hc)
      (fun _ => .inr (h.child_serves (hwaits hc) hq hqs))
      nofun nofun nofun hfiles
  cases hm with
  | starts pc hpc hpc' =>
    refine h.replace hp (by rw [hpc]; nofun) { p with pc := pc, started := true } rfl (fun _ => rfl)
      (fun _ => rfl) ?_ ?_ ?_ _
      fun _ hf => .inl hf
    all_goals rcases hpc' with rfl | rfl
    · exact fun _ => .inl rfl
    · exact fun _ => .inl rfl
    all_goals exact nofun
  | notifies ok hpc =>
    have hs : p.started = true := hstarted (by simp [Program.serves, hpc])
    refine h.replace hp (by rw [hpc]; nofun) { p with pc := .signals } rfl id (fun _ => hs)
      (fun _ => .inl rfl) nofun nofun _
      fun pid hf => ?_
    split at hf
    · exact (List.mem_cons.1 hf).symm.imp_right fun he => ⟨he, hs⟩
    · exact .inl hf
  | spawns pid hpc hfree =>
    simp only [fair, hp, decide_eq_true_eq] at hok
    have hs : p.started = true := hstarted (by simp [Program.serves, hpc])
    have hlt := (List.getElem?_eq_some_iff.1 hp).1
    refine (h.spawn hfree).replace (p := p) ?_ (by rw [hpc]; nofun)
      { p with pc := .test ⟨s.programs.length, pid⟩ s.now } rfl id
      (fun _ => hs) (fun _ => .inl rfl) ?_ nofun _ fun _ hf => .inl hf
    · rw [List.getElem?_append_left hlt]
      exact hp
    · rintro _ ⟨⟩
      refine ⟨hlt, ⟨⟨pid, true, .starting, false⟩, List.getElem?_concat_length, rfl, fun hf => absurd hf hok⟩,
        fun j q hj hq hne => ?_⟩
      rw [List.getElem?_append] at hq
      split at hq
      case isTrue =>
        simp only [free, List.all_eq_true, Bool.and_eq_true] at hfree
        have hq' := (hfree q (List.mem_of_getElem? hq)).1
        simpa [hne] using hq'
      case isFalse hge =>
        have hlen := (List.getElem?_eq_some_iff.1 hq).1
        rw [List.length_singleton] at hlen
        exact absurd (show j = s.programs.length by omega) hj
  | @finds child start_ts hpc hf =>
    refine hgoto (.remove_file child) (by rw [hpc]; nofun) (fun _ => .inl rfl)
      (fun _ => by simp [Program.serves, hpc]) ?_ ?_ (List.Subset.refl _)
    · rintro _ ⟨⟩
      rw [hpc]
      rfl
    · rintro _ ⟨⟩
      exact hf
  | @leaves child files ok hpc hf =>
    obtain ⟨q, hq, hqs⟩ := h.found i p child hp hpc
    exact hleave (by rw [hpc]; rfl) hq hqs hf
  | @gives_up child hpc hg =>
    simp only [fair, hp, hpc, ReadyPc.child, Option.all_some, hg, Bool.false_or] at hok
    obtain ⟨q, hq, hqs⟩ := (Option.any_eq_true _ _).1 hok
    exact hleave (by rw [hpc]; rfl) hq hqs (List.Subset.refl _)
  | closes hpc hsig =>
    simp only [fair, hp, decide_eq_true_eq] at hok
    exact absurd hok hsig
  | dies hne =>
    simp only [fair, hp, Bool.not_eq_true'] at hok
    exact hgoto .exited hne (fun hs => .inr (h.followed hp hs hok)) nofun nofun nofun (List.Subset.refl _)
  | other pc hne hs hc hr =>
    refine hgoto pc hne (fun hst => ?_) (fun hs' => hs.symm.trans hs') (fun child hch => ?_)
      (fun child he => absurd he (hr child))
      (List.Subset.refl _)
    · cases hsv : p.serves with
      | true => exact .inl (hs.trans hsv)
      | false => exact .inr (h.followed hp hst hsv)
    · exact hc.elim (fun hc => absurd (hc.symm.trans hch) nofun) fun hc => hc.symm.trans hch

theorem Inv.step (h : Inv s) {c : RestartConfig} {e : Event} (hok : s.fine c e = true)
    (hs : s.step c e = some s') :
    Inv s' := by
  cases e with
  | program i a =>
    obtain ⟨p, hp, hs⟩ := Option.bind_eq_some_iff.1 hs
    exact h.move hp hok (run_cases hp hs)
  | passes n =>
    cases hs
    exact { h with awaits := fun i p child hp hc => { h.awaits i p child hp hc with } }

/-- Once a program has started there is one that serves, and it is not an older one: so
no restart leaves the service without a program, whatever becomes of the new ones. -/
theorem restarts_keep_service {c : RestartConfig} {pid : Nat} {pid_file : Option Nat}
    {files : List Nat} {tr : List (Programs × Event)}
    (h : Run (step c) (start pid pid_file files) tr s)
    (hok : Meets (fun s e => s.fine c e = true) tr) {i : Nat} {p : Program}
    (hp : s.programs[i]? = some p) (hs : p.started = true) : s.Served i :=
  (h.inv_of_meets Inv (start_inv pid pid_file files)
    (fun _ _ _ hi hok hs => hi.step hok hs) hok).served i p hp hs

def sampleConfig : RestartConfig := ⟨10, [15], some 1⟩

/-- A program starts, and one that replaces it. -/
def sampleRestart : List Event :=
  [.program 0 (.wrote true), .program 0 (.signal 1), .program 0 (.spawned (some 5)), .program 0 .next,
    .program 0 (.opened false), .passes 1, .program 1 (.wrote true), .program 1 (.wrote true),
    .program 0 .next,
    .program 0 .next, .program 0 (.opened true), .program 0 (.removed true), .program 0 .next]

theorem restarts_keep_service_sample : ∃ tr s, Run (step sampleConfig) (start 4 none []) tr s ∧
    s.programs.map Program.serves = [false, true] ∧ s.Served 0 := by
  have hrun : (follow (step sampleConfig) (start 4 none []) sampleRestart).map (fun r =>
      (r.1.all fun p => p.1.fine sampleConfig p.2, r.2.programs.map Program.serves,
        r.2.programs.map Program.started)) =
        some (true, [false, true], [true, true]) := by decide +kernel
  obtain ⟨⟨tr, s⟩, hf, hend⟩ := Option.map_eq_some_iff.1 hrun
  simp only [Prod.mk.injEq, List.all_eq_true] at hend
  obtain ⟨hm, hserves, hstarted⟩ := hend
  have hr := Run.of_follow hf
  obtain ⟨p, hp, hs⟩ : ∃ p, s.programs[0]? = some p ∧ p.started = true := by
    have h0 := congrArg (·[0]?) hstarted
    simpa using h0
  exact ⟨tr, s, hr, hserves, restarts_keep_service hr hm hp hs⟩

/-- A file that was left in `run_dir` by an earlier process of that pid is taken for the
sign that the new program has started: the old one leaves, and none serves when the new one
fails. -/
theorem stale_file_ends_service : ∃ tr s, Run (step sampleConfig) (start 4 none [5]) tr s ∧
    (∀ p ∈ tr, p.1.fine sampleConfig p.2 = true ∨ p.2 = .program 0 (.spawned (some 5))) ∧
    s.programs.map Program.started = [true, false] ∧
    s.programs.map Program.serves = [false, false] := by
  have hrun : (follow (step sampleConfig) (start 4 none [5])
      [.program 0 (.wrote true), .program 0 (.signal 1), .program 0 (.spawned (some 5)), .program 0 .next,
        .program 0 (.opened true), .program 0 (.removed true), .program 1 .dies]).map (fun r =>
      (r.1.all fun p => p.1.fine sampleConfig p.2 || p.2 = .program 0 (.spawned (some 5)),
        r.2.programs.map Program.started, r.2.programs.map Program.serves)) =
        some (true, [true, false], [false, false]) := by decide +kernel
  obtain ⟨⟨tr, s⟩, hf, hend⟩ := Option.map_eq_some_iff.1 hrun
  simp only [Prod.mk.injEq, List.all_eq_true, Bool.or_eq_true, decide_eq_true_eq] at hend
  obtain ⟨hm, hstarted, hserves⟩ := hend
  exact ⟨tr, s, Run.of_follow hf, hm, hstarted, hserves⟩

end Programs

end OccamsRpc
