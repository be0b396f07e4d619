import OccamsRpc.Core.Graceful
import OccamsRpc.Lib.Runs
import Mathlib.Logic.Function.Basic
/-!
# Listeners across restarts

A program makes the calls `new_listener(addr_0)`, `new_listener(addr_1)`, ... in order,
and so does every program that replaces it. A restart hands the descriptors on as a list
of those that there are, and the calls of the new program take one each from its front:
which call a descriptor was opened for is known by its place alone.
-/
open Lib

namespace OccamsRpc

/-- What the operating system answers: whether a descriptor can be made a listener for
an address, and the descriptor a `bind` gives. -/
structure ListenOs where
  try_from_raw_fd : String → Int32 → Bool
  bind : String → Option Int32

/-- How a call of `new_listener` ends. -/
inductive Listened
  | adopted (raw_fd : Int32)
  | bound (raw_fd : Int32)
  | failed
  deriving DecidableEq

/-- How it ends when `bind` gives this. -/
def Listened.afresh : Option Int32 → Listened
  | some raw_fd => .bound raw_fd
  | none => .failed

namespace GracefulServer

/-- `new_listener`, from `L::bind` on. -/
def listen (self : GracefulServer) : Option Int32 → GracefulServer × Listened
  | none => (self, .failed)
  | some raw_fd =>
    ({ self with listen_fds := self.listen_fds ++ [i32_to_string raw_fd] }, .bound raw_fd)

/-- A descriptor that was taken over is used if it is a listener of the address; else a new
one is bound. -/
def new_listener (self : GracefulServer) (os : ListenOs) (addr : String) :
    GracefulServer × Listened :=
  match self.recover_listen_fds with
  | raw_fd :: rest =>
    if os.try_from_raw_fd addr raw_fd then
      ({ self with
        recover_listen_fds := rest, listen_fds := self.listen_fds ++ [i32_to_string raw_fd] },
        .adopted raw_fd)
    else listen { self with recover_listen_fds := rest } (os.bind addr)
  | [] => listen self (os.bind addr)

end GracefulServer

/-! ## A program and those that replace it -/

/-- What a descriptor is: a socket that was opened to listen for the call `i`, or
something else. -/
inductive Opened
  | listener (i : Nat)
  | other
  deriving DecidableEq

/-- A program and the descriptors that it has open. A restart replaces the program and keeps
those that it hands on. -/
structure Process where
  server : GracefulServer
  /-- What its calls of `new_listener` have given so far. -/
  got : List (Option Int32)
  /-- The descriptors that are open. -/
  table : Int32 → Option Opened

namespace Process

/-- The first program, with some files open. -/
def start (opened : Int32 → Bool) : Process :=
  ⟨⟨[], false, []⟩, [], fun fd => if opened fd then some .other else none⟩

/-- What the program, and whatever else runs in the process, does. -/
inductive Act
  /-- `new_listener` of the next address -/
  | new_listener (os : ListenOs)
  /-- A listener is dropped, or another file. -/
  | closes (fd : Int32)
  | opens (fd : Int32)
  /-- `restart`; the program goes on as the new one. -/
  | restart

/-- A descriptor that is not open can not be made a listener. -/
def os (p : Process) (os : ListenOs) : ListenOs where
  try_from_raw_fd addr fd := (p.table fd).isSome && os.try_from_raw_fd addr fd
  bind := os.bind

/-- The descriptors when `bind` is called: one that could not be made a listener has
been closed. -/
def tableAtBind (p : Process) : Int32 → Option Opened :=
  match p.server.recover_listen_fds with
  | raw_fd :: _ => Function.update p.table raw_fd none
  | [] => p.table

/-- A call of `new_listener`; a `bind` gives a descriptor that is free. -/
def new_listener (p : Process) (os : ListenOs) (addr : String) : Option Process :=
  match p.server.new_listener (p.os os) addr with
  | (server, .adopted fd) => some ⟨server, p.got ++ [some fd], p.table⟩
  | (server, .bound fd) =>
    if p.tableAtBind fd = none then
      some ⟨server, p.got ++ [some fd], Function.update p.tableAtBind fd (some (.listener p.got.length))⟩
    else none
  | (server, .failed) => some ⟨server, p.got ++ [none], p.tableAtBind⟩

/-- The steps of a program that listens on `addrs`: it is restarted from `ready`, when it
has made its calls. The new one has the standard descriptors and the preserved ones. -/
def step (addrs : List String) (p : Process) : Act → Option Process
  | .new_listener os => (addrs[p.got.length]?).bind (p.new_listener os)
  | .closes fd => some { p with table := Function.update p.table fd none }
  | .opens fd =>
    if p.table fd = none then some { p with table := Function.update p.table fd (some .other) } else none
  | .restart =>
    if p.got.length = addrs.length then do
      let (preserved_fds, env) ← p.server.restart
      let server ← GracefulServer.new (some env)
      some ⟨server, [], fun fd => if fd < 3 ∨ fd ∈ preserved_fds then p.table fd else none⟩
    else none

/-! ## What it is for -/

/-- The next call of `new_listener` takes the descriptor that was opened for it, if
there is one and it can be used, and binds otherwise. What is open for this call at this
time was opened by an earlier program. -/
structure Right (p : Process) (os : ListenOs) (addr : String) : Prop where
  own : ∀ fd, (p.server.new_listener (p.os os) addr).2 = .adopted fd →
    p.table fd = some (.listener p.got.length)
  adopts : ∀ fd, p.table fd = some (.listener p.got.length) → os.try_from_raw_fd addr fd = true →
    (p.server.new_listener (p.os os) addr).2 = .adopted fd
  binds : (∀ fd, p.table fd = some (.listener p.got.length) → os.try_from_raw_fd addr fd = false) →
    (p.server.new_listener (p.os os) addr).2 = .afresh (os.bind addr)

/-- What keeps the places: a number that is listed is not used for anything else, and a
restart comes when no call failed before one that did not. -/
def keepsPlaces (addrs : List String) (p : Process) : Act → Prop
  | .new_listener os => ∀ addr fd, addrs[p.got.length]? = some addr → os.bind addr = some fd →
      some fd ∉ p.got ∧ fd ∉ p.server.recover_listen_fds.tail
  | .opens fd => some fd ∉ p.got ∧ fd ∉ p.server.recover_listen_fds
  | .closes _ => True
  | .restart => p.got.Pairwise fun a b => b.isSome = true → a.isSome = true

/-! ## Every descriptor at its place -/

/-- The descriptor of each call: those it has made, and those that are to come. -/
def places (p : Process) : List (Option Int32) := p.got ++ p.server.recover_listen_fds.map some

/-- Every descriptor that the program got for an address is the listener of that address, in
this program and in all that were started from it. -/
structure Placed (addrs : List String) (p : Process) : Prop where
  holds : p.server.Holds (p.got.filterMap id)
  /-- A descriptor is the listener of its place, unless it has been closed. -/
  listener : ∀ k fd, p.places[k]? = some (some fd) → p.table fd = none ∨
    p.table fd = some (.listener k)
  placed : ∀ fd k, p.table fd = some (.listener k) → p.places[k]? = some (some fd)
  length_le : p.places.length ≤ addrs.length

end Process

namespace GracefulServer

/-- `new_listener` takes the first of the list if it can be used; it is gone from the
list in any case. -/
theorem new_listener_cases (self : GracefulServer) (os : ListenOs) (addr : String) :
    (∃ raw_fd rest, self.recover_listen_fds = raw_fd :: rest ∧ os.try_from_raw_fd addr raw_fd = true ∧
      self.new_listener os addr = ({ self with
        recover_listen_fds := rest
        listen_fds := self.listen_fds ++ [i32_to_string raw_fd] }, .adopted raw_fd)) ∨
    ((∀ raw_fd rest, self.recover_listen_fds = raw_fd :: rest → os.try_from_raw_fd addr raw_fd = false) ∧
      self.new_listener os addr =
      listen { self with recover_listen_fds := self.recover_listen_fds.tail } (os.bind addr)) := by
  obtain ⟨listen_fds, recovered, recover_listen_fds⟩ := self
  cases recover_listen_fds with
  | nil => exact .inr ⟨fun _ _ h => (by cases h), rfl⟩
  | cons raw_fd rest =>
    by_cases htry : os.try_from_raw_fd addr raw_fd = true
    · exact .inl ⟨raw_fd, rest, rfl, htry, if_pos htry⟩
    · refine .inr ⟨?_, if_neg htry⟩
      rintro _ _ ⟨⟩
      exact Bool.eq_false_iff.2 htry

theorem listen_snd (self : GracefulServer) (bind : Option Int32) :
    (self.listen bind).2 = .afresh bind := by
  cases bind <;> rfl

theorem Holds.concat {self : GracefulServer} {fds : List Int32} (h : self.Holds fds) (fd : Int32)
    (rest : List Int32) :
    Holds { self with
      recover_listen_fds := rest, listen_fds := self.listen_fds ++ [i32_to_string fd] }
      (fds ++ [fd]) := by
  show self.listen_fds ++ [i32_to_string fd] = (fds ++ [fd]).map i32_to_string
  rw [h, List.map_append]
  rfl

end GracefulServer

namespace Process

variable {addrs : List String} {p p' : Process}

/-- The place of the next call. -/
theorem places_length (p : Process) :
    p.places[p.got.length]? = p.server.recover_listen_fds.head?.map some := by
  rw [places, List.getElem?_append_right (Nat.le_refl _), Nat.sub_self, List.getElem?_map,
    List.head?_eq_getElem?]

theorem right_of_placed (h : p.Placed addrs) (os : ListenOs) (addr : String) : p.Right os addr := by
  have hfirst : ∀ raw_fd rest, p.server.recover_listen_fds = raw_fd :: rest →
      p.places[p.got.length]? = some (some raw_fd) := by
    intro raw_fd rest hr
    rw [places_length, hr]
    rfl
  rcases p.server.new_listener_cases (p.os os) addr with ⟨raw_fd, rest, hr, htry, heq⟩ | ⟨hno, heq⟩
  · obtain ⟨hopen, htry⟩ := (Bool.and_eq_true _ _).mp htry
    have hown : p.table raw_fd = some (.listener p.got.length) := by
      refine (h.listener _ _ (hfirst raw_fd rest hr)).resolve_left fun hclosed => ?_
      rw [hclosed] at hopen
      cases hopen
    constructor
    · intro fd hfd
      rw [heq] at hfd
      cases hfd
      exact hown
    · intro fd hfd _
      have hplace := h.placed fd _ hfd
      rw [hfirst raw_fd rest hr] at hplace
      cases hplace
      rw [heq]
    · intro hnone
      rw [hnone raw_fd hown] at htry
      cases htry
  · have hafresh : (p.server.new_listener (p.os os) addr).2 = .afresh (os.bind addr) := by
      rw [heq, GracefulServer.listen_snd]
      rfl
    constructor
    · intro fd hfd
      rw [hafresh] at hfd
      cases hb : os.bind addr <;> rw [hb] at hfd <;> cases hfd
    · intro fd hfd htry
      have hplace := h.placed fd _ hfd
      rw [places_length] at hplace
      cases hr : p.server.recover_listen_fds with
      | nil =>
        rw [hr] at hplace
        cases hplace
      | cons raw_fd rest =>
        rw [hr] at hplace
        cases hplace
        have hfalse : ((p.table fd).isSome && os.try_from_raw_fd addr fd) = false := hno fd rest hr
        rw [hfd, htry] at hfalse
        cases hfalse
    · intro _
      exact hafresh

/-! ## Steps -/

theorem tableAtBind_eq (p : Process) (fd : Int32) :
    p.tableAtBind fd = if p.server.recover_listen_fds.head? = some fd
      then none else p.table fd := by
  unfold tableAtBind
  cases p.server.recover_listen_fds with
  | nil => rfl
  | cons raw_fd rest =>
    simp only [Function.update_apply, List.head?_cons, Option.some.injEq, eq_comm]

/-- The other calls keep their places. -/
theorem getElem?_places (p : Process) (x : Option Int32) {k : Nat} (hk : k ≠ p.got.length) :
    (p.got ++ [x] ++ p.server.recover_listen_fds.tail.map some)[k]? = p.places[k]? := by
  rw [places, List.append_assoc]
  by_cases hlt : k < p.got.length
  · rw [List.getElem?_append_left hlt, List.getElem?_append_left hlt]
  · have hle : p.got.length ≤ k := Nat.le_of_not_lt hlt
    obtain ⟨j, hj⟩ : ∃ j, k - p.got.length = j + 1 := ⟨k - p.got.length - 1, by omega⟩
    rw [List.getElem?_append_right hle, List.getElem?_append_right hle, hj]
    cases p.server.recover_listen_fds with
    | nil => rfl
    | cons raw_fd rest => rfl

theorem getElem?_places_self (p : Process) (x : Option Int32) :
    (p.got ++ [x] ++ p.server.recover_listen_fds.tail.map some)[p.got.length]? = some x := by
  rw [List.append_assoc, List.getElem?_append_right (Nat.le_refl _), Nat.sub_self]
  rfl

/-- A descriptor that was not listed has no place but its own. -/
theorem ne_of_getElem?_places {x : Option Int32}
    (hfree : ∀ fd, x = some fd → some fd ∉ p.got ∧ fd ∉ p.server.recover_listen_fds.tail) {k : Nat}
    {fd : Int32} (hk : k ≠ p.got.length)
    (hget : (p.got ++ [x] ++ p.server.recover_listen_fds.tail.map some)[k]? = some (some fd)) :
    x ≠ some fd := by
  intro hx
  obtain ⟨hgot, hrest⟩ := hfree fd hx
  rcases Nat.lt_or_gt_of_ne hk with hlt | hgt
  · rw [List.append_assoc, List.getElem?_append_left hlt] at hget
    exact hgot (List.mem_of_getElem? hget)
  · have hle : (p.got ++ [x]).length ≤ k := by
      rw [List.length_append, List.length_singleton]
      exact hgt
    rw [List.getElem?_append_right hle, List.getElem?_map, Option.map_eq_some_iff] at hget
    obtain ⟨fd', hget, ⟨⟩⟩ := hget
    exact hrest (List.mem_of_getElem? hget)

/-- A call that does not adopt: its place is given anew, or is empty. -/
theorem Placed.afresh (h : p.Placed addrs) (hlt : p.got.length < addrs.length)
    {server : GracefulServer} {x : Option Int32} {table : Int32 → Option Opened}
    (hserver : server.recover_listen_fds = p.server.recover_listen_fds.tail)
    (hholds : server.Holds ((p.got ++ [x]).filterMap id))
    (hfree : ∀ fd, x = some fd → some fd ∉ p.got ∧ fd ∉ p.server.recover_listen_fds.tail)
    (hnew : ∀ fd, x = some fd → table fd = some (.listener p.got.length))
    (hold : ∀ fd, x ≠ some fd → table fd = p.tableAtBind fd) :
    Placed addrs ⟨server, p.got ++ [x], table⟩ := by
  have hplaces : places ⟨server, p.got ++ [x], table⟩ =
      p.got ++ [x] ++ p.server.recover_listen_fds.tail.map some := by
    rw [places, hserver]
  refine ⟨hholds, fun k fd hget => ?_, fun fd k hfd => ?_, ?_⟩
  · rw [hplaces] at hget
    by_cases hk : k = p.got.length
    · subst hk
      rw [getElem?_places_self] at hget
      exact .inr (hnew fd (Option.some.inj hget))
    · have hne := ne_of_getElem?_places hfree hk hget
      rw [getElem?_places p x hk] at hget
      show table fd = none ∨ table fd = some (.listener k)
      rw [hold fd hne, tableAtBind_eq]
      split
      · exact .inl rfl
      · exact h.listener k fd hget
  · rw [hplaces]
    have hfd : table fd = some (.listener k) := hfd
    by_cases hx : x = some fd
    · rw [hnew fd hx] at hfd
      cases hfd
      rw [getElem?_places_self, hx]
    · rw [hold fd hx, tableAtBind_eq] at hfd
      split at hfd
      case isTrue => cases hfd
      case isFalse hhead =>
        have hget := h.placed fd k hfd
        by_cases hk : k = p.got.length
        · -- its descriptor has been closed
          subst hk
          rw [places_length, Option.map_eq_some_iff] at hget
          obtain ⟨_, hget, ⟨⟩⟩ := hget
          exact absurd hget hhead
        · rwa [getElem?_places p x hk]
  · have hle := h.length_le
    rw [hplaces]
    simp only [places, List.length_append, List.length_map, List.length_tail, List.length_singleton] at hle ⊢
    omega

theorem Placed.new_listener (h : p.Placed addrs) (hlt : p.got.length < addrs.length) {os : ListenOs}
    {addr : String}
    (hfree : ∀ fd, os.bind addr = some fd → some fd ∉ p.got ∧ fd ∉ p.server.recover_listen_fds.tail)
    (hstep : p.new_listener os addr = some p') : p'.Placed addrs := by
  unfold Process.new_listener at hstep
  rcases p.server.new_listener_cases (p.os os) addr with ⟨raw_fd, rest, hr, -, heq⟩ | ⟨-, heq⟩
  · rw [heq] at hstep
    cases hstep
    have hplaces : p.got ++ [some raw_fd] ++ rest.map some = p.places := by
      rw [places, hr, List.append_assoc]
      rfl
    refine ⟨?_, ?_, ?_, ?_⟩
    · rw [List.filterMap_append]
      exact h.holds.concat raw_fd rest
    · rw [places, hplaces]
      exact h.listener
    · rw [places, hplaces]
      exact h.placed
    · rw [places, hplaces]
      exact h.length_le
  · have hbind : (p.os os).bind addr = os.bind addr := rfl
    rw [heq, hbind] at hstep
    cases hb : os.bind addr with
    | none =>
      rw [hb] at hstep
      cases hstep
      refine h.afresh hlt rfl ?_ (fun _ hx => (by cases hx)) (fun _ hx => (by cases hx)) fun _ _ => rfl
      rw [List.filterMap_append]
      show p.server.listen_fds = _
      rw [h.holds]
      exact congrArg _ (List.append_nil _).symm
    | some raw_fd =>
      rw [hb] at hstep
      obtain ⟨-, ⟨⟩⟩ := Option.ite_none_right_eq_some.1 hstep
      refine h.afresh hlt rfl ?_ ?_ ?_ ?_
      · rw [List.filterMap_append]
        exact h.holds.concat raw_fd _
      · rintro _ ⟨⟩
        exact hfree raw_fd hb
      · rintro _ ⟨⟩
        exact Function.update_self ..
      · intro fd hfd
        exact Function.update_of_ne (fun he => hfd (congrArg some he.symm)) ..

theorem Placed.closes (h : p.Placed addrs) (fd : Int32) :
    Placed addrs { p with table := Function.update p.table fd none } := by
  refine ⟨h.holds, fun k fd' hget => ?_, fun fd' k hfd => ?_, h.length_le⟩
  · by_cases hfd : fd' = fd
    · subst hfd
      exact .inl (Function.update_self ..)
    · show Function.update p.table fd none fd' = none ∨ Function.update p.table fd none fd' = _
      rw [Function.update_of_ne hfd]
      exact h.listener k fd' hget
  · have hfd : Function.update p.table fd none fd' = some (.listener k) := hfd
    rw [Function.update_apply] at hfd
    split at hfd
    · cases hfd
    · exact h.placed fd' k hfd

theorem Placed.opens (h : p.Placed addrs) {fd : Int32} (hgot : some fd ∉ p.got)
    (hrest : fd ∉ p.server.recover_listen_fds) :
    Placed addrs { p with table := Function.update p.table fd (some .other) } := by
  refine ⟨h.holds, fun k fd' hget => ?_, fun fd' k hfd => ?_, h.length_le⟩
  · have hne : fd' ≠ fd := by
      rintro rfl
      rcases List.mem_append.1 (List.mem_of_getElem? hget) with hmem | hmem
      · exact hgot hmem
      · obtain ⟨_, hmem, ⟨⟩⟩ := List.mem_map.1 hmem
        exact hrest hmem
    show Function.update p.table fd (some .other) fd' = none ∨
      Function.update p.table fd (some .other) fd' = _
    rw [Function.update_of_ne hne]
    exact h.listener k fd' hget
  · have hfd : Function.update p.table fd (some .other) fd' = some (.listener k) := hfd
    rw [Function.update_apply] at hfd
    split at hfd
    · cases hfd
    · exact h.placed fd' k hfd

theorem Placed.restart (h : p.Placed addrs) (hcalls : p.got.length = addrs.length)
    (hgot : p.got.Pairwise fun a b => b.isSome = true → a.isSome = true)
    (hstep : p.step addrs .restart = some p') : p'.Placed addrs := by
  have hrest : p.server.recover_listen_fds = [] := by
    have hle := h.length_le
    rw [places, List.length_append, List.length_map] at hle
    exact List.length_eq_zero_iff.1 (by omega)
  have hplaces : p.places = p.got := by rw [places, hrest, List.map_nil, List.append_nil]
  rw [step, if_pos hcalls, h.holds.restart, Option.bind_eq_bind, Option.bind_some] at hstep
  obtain ⟨server, hnew, ⟨⟩⟩ := Option.bind_eq_some_iff.1 hstep
  have hne : p.got.filterMap id ≠ [] := by
    intro hnil
    rw [hnil] at hnew
    cases GracefulServer.new_of_nil.symm.trans hnew
  cases (GracefulServer.new_of_fds hne).symm.trans hnew
  have hget : ∀ (k : Nat) (fd : Int32), ((p.got.filterMap id).map some)[k]? = some (some fd) ↔
      p.places[k]? = some (some fd) := by
    intro k fd
    rw [hplaces, ← getElem?_filterMap_id hgot, List.getElem?_map, Option.map_eq_some_iff]
    simp only [Option.some.injEq, exists_eq_right]
  refine ⟨rfl, fun k fd hk => ?_, fun fd k hfd => ?_, ?_⟩
  · dsimp only
    split
    · exact h.listener k fd ((hget k fd).1 hk)
    · exact .inl rfl
  · dsimp only at hfd
    split at hfd
    · exact (hget k fd).2 (h.placed fd k hfd)
    · cases hfd
  · rw [← hcalls, places, List.nil_append, List.length_map]
    exact List.length_filterMap_le ..

theorem step_placed (h : p.Placed addrs) {a : Act} (hok : p.keepsPlaces addrs a)
    (hstep : p.step addrs a = some p') :
    p'.Placed addrs := by
  cases a with
  | new_listener os =>
    obtain ⟨addr, haddr, hstep⟩ := Option.bind_eq_some_iff.1 hstep
    exact h.new_listener (List.getElem?_eq_some_iff.1 haddr).1 (fun fd => hok addr fd haddr) hstep
  | closes fd =>
    cases hstep
    exact h.closes fd
  | opens fd =>
    obtain ⟨-, ⟨⟩⟩ := Option.ite_none_right_eq_some.1 hstep
    exact h.opens hok.1 hok.2
  | restart => exact h.restart (Option.ite_none_right_eq_some.1 hstep).1 hok hstep

theorem start_placed (opened : Int32 → Bool) : (start opened).Placed addrs := by
  refine ⟨rfl, fun k fd h => ?_, fun fd k h => ?_, Nat.zero_le _⟩
  · cases h
  · simp only [start] at h
    split at h <;> cases h

/-- Over any number of restarts: while the places are kept, every call takes the
descriptor that was opened for it, if it can, and binds otherwise. -/
theorem listeners_handed_on (opened : Int32 → Bool) {tr : List (Process × Act)}
    (hrun : Run (step addrs) (start opened) tr p) (hok : Meets (keepsPlaces addrs) tr)
    (os : ListenOs) (addr : String) :
    p.Right os addr :=
  right_of_placed (hrun.inv_of_meets (Placed addrs) (start_placed opened)
    (fun _ _ _ h hok => step_placed h hok) hok) os addr

/-- Any descriptor can be used, and `bind` gives `fd`. -/
def gives (fd : Option Int32) : ListenOs := ⟨fun _ _ => true, fun _ => fd⟩

/-- The second of two calls fails: the new program's first finds its descriptor. -/
theorem listeners_handed_on_first : ∃ tr p, Run (step ["a", "b"]) (start fun fd => fd < 3) tr p ∧
    Meets (keepsPlaces ["a", "b"]) tr ∧ p.table 3 = some (.listener 0) ∧
    p.Right (gives none) "a" := by
  have hrun : ∃ tr p, Run (step ["a", "b"]) (start fun fd => fd < 3) tr p ∧
      Meets (keepsPlaces ["a", "b"]) tr ∧
      p.table 3 = some (.listener 0) := by
    refine ⟨_, _,
      .snoc (.snoc (.snoc .nil (a := .new_listener (gives (some 3))) rfl)
      (a := .new_listener (gives none)) rfl)
      (a := .restart) rfl, ?_, rfl⟩
    simp only [meets_snoc, meets_nil, true_and]
    refine ⟨⟨?_, ?_⟩, ?_⟩
    · rintro _ _ - -
      exact ⟨List.not_mem_nil, List.not_mem_nil⟩
    · rintro _ _ - ⟨⟩
    · show [some (3 : Int32), none].Pairwise fun a b => b.isSome = true → a.isSome = true
      decide
  obtain ⟨tr, p, hrun, hok, hopen⟩ := hrun
  exact ⟨tr, p, hrun, hok, hopen, listeners_handed_on _ hrun hok (gives none) "a"⟩

/-- The first fails: what was opened for the second is adopted for the first. -/
theorem adopts_other_listener :
    ∃ tr p, Run (step ["a", "b"]) (start fun fd => fd < 3) tr p ∧ p.got = [] ∧
    (p.server.new_listener (p.os (gives none)) "a").2 = .adopted 3 ∧
    p.table 3 = some (.listener 1) ∧
    ¬ p.Right (gives none) "a" := by
  refine ⟨_, _,
    .snoc (.snoc (.snoc .nil (a := .new_listener (gives none)) rfl)
    (a := .new_listener (gives (some 3))) rfl)
    (a := .restart) rfl, rfl, rfl, rfl, fun h => ?_⟩
  cases h.own 3 rfl

end Process

end OccamsRpc
