import OccamsRpc.Lib.Lists
/-!
# Runs of a step function

A system is a partial step function: `step s a = some s'` when action `a` can
happen in `s`. A `Run` lists every step taken, each with the state it was taken
in, so that a condition on steps ("no write failed") and a property of states
("nothing is lost") can be stated about the same run.
-/

namespace Lib

variable {σ α : Type*}

/-- The runs of `step` from `init`: the steps taken, and the state after them. -/
inductive Run (step : σ → α → Option σ) (init : σ) : List (σ × α) → σ → Prop
  | nil : Run step init [] init
  | snoc {tr s a s'} : Run step init tr s → step s a = some s' → Run step init (tr ++ [(s, a)]) s'

/-- Every step of the run satisfies `ok`. -/
def Meets (ok : σ → α → Prop) (tr : List (σ × α)) : Prop := ∀ p ∈ tr, ok p.1 p.2

/-- Every state of the run, the last one `s` included, satisfies `Q`. -/
def Always (Q : σ → Prop) (tr : List (σ × α)) (s : σ) : Prop := (∀ p ∈ tr, Q p.1) ∧ Q s

variable {step : σ → α → Option σ} {init : σ}

@[simp] theorem meets_nil (ok : σ → α → Prop) : Meets ok [] := by simp [Meets]

@[simp] theorem meets_snoc (ok : σ → α → Prop) (tr : List (σ × α)) (s : σ) (a : α) :
    Meets ok (tr ++ [(s, a)]) ↔ Meets ok tr ∧ ok s a := by
  simp only [Meets, List.mem_append, List.mem_singleton]
  constructor
  · intro h
    exact ⟨fun p hp => h p (.inl hp), h (s, a) (.inr rfl)⟩
  · rintro ⟨h1, h2⟩ p (hp | rfl)
    · exact h1 p hp
    · exact h2

@[simp] theorem always_snoc (Q : σ → Prop) (tr : List (σ × α)) (s : σ) (a : α) (s' : σ) :
    Always Q (tr ++ [(s, a)]) s' ↔ Always Q tr s ∧ Q s' := by
  simp only [Always, List.mem_append, List.mem_singleton]
  constructor
  · rintro ⟨h1, h2⟩
    exact ⟨⟨fun p hp => h1 p (.inl hp), h1 (s, a) (.inr rfl)⟩, h2⟩
  · rintro ⟨⟨h1, h2⟩, h3⟩
    refine ⟨?_, h3⟩
    rintro p (hp | rfl)
    · exact h1 p hp
    · exact h2

/-- An invariant kept by every step that satisfies `ok` holds after every run
whose steps all do. -/
theorem Run.inv_of_meets {ok : σ → α → Prop} (I : σ → Prop) (h0 : I init)
    (hs : ∀ s a s', I s → ok s a → step s a = some s' → I s')
    {tr s} (h : Run step init tr s) (hok : Meets ok tr) : I s := by
  induction h with
  | nil => exact h0
  | snoc _ ht ih =>
    rw [meets_snoc] at hok
    exact hs _ _ _ (ih hok.1) hok.2 ht

/-- An invariant kept by every step holds after every run. -/
theorem Run.inv (I : σ → Prop) (h0 : I init) (hs : ∀ s a s', I s → step s a = some s' → I s')
    {tr s} (h : Run step init tr s) : I s :=
  h.inv_of_meets I h0 (fun s a s' hi (_ : True) ht => hs s a s' hi ht) (fun _ _ => trivial)

/-- The state a step of a run was taken in is itself reached by a run. -/
theorem Run.before {tr s} (h : Run step init tr s) :
    ∀ p ∈ tr, ∃ tr', Run step init tr' p.1 ∧ ∀ q ∈ tr', q ∈ tr := by
  induction h with
  | nil => simp
  | @snoc tr s a s' hr ht ih =>
    intro p hp
    rcases List.mem_append.1 hp with hp | hp
    · obtain ⟨tr', hr', hsub⟩ := ih p hp
      exact ⟨tr', hr', fun q hq => List.mem_append_left _ (hsub q hq)⟩
    · rw [List.mem_singleton] at hp
      subst hp
      exact ⟨tr, hr, fun q hq => List.mem_append_left _ hq⟩

/-- Runs compose. -/
theorem Run.trans {tr tr' s t} (h : Run step init tr s) (h' : Run step s tr' t) :
    Run step init (tr ++ tr') t := by
  induction h' with
  | nil => simpa using h
  | snoc _ ht ih => rw [← List.append_assoc]; exact .snoc ih ht

/-- Take the actions one after the other; `none` when one of them cannot happen. -/
def follow (step : σ → α → Option σ) : σ → List α → Option (List (σ × α) × σ)
  | s, [] => some ([], s)
  | s, a :: as => (step s a).bind fun s' => (follow step s' as).map fun r => ((s, a) :: r.1, r.2)

theorem follow_cons {s s₁ s' : σ} {a : α} {as : List α} {tr : List (σ × α)} (h : step s a = some s₁)
    (h' : follow step s₁ as = some (tr, s')) :
    follow step s (a :: as) = some ((s, a) :: tr, s') := by
  rw [follow, h, Option.bind_some, h', Option.map_some]

theorem Run.of_follow {as : List α} :
    ∀ {s tr s'}, follow step s as = some (tr, s') → Run step s tr s' := by
  induction as with
  | nil =>
    rintro s tr s' ⟨⟩
    exact .nil
  | cons a as ih =>
    intro s tr s' h
    obtain ⟨s₁, h₁, h₂⟩ := Option.bind_eq_some_iff.1 h
    obtain ⟨r, hr, ⟨⟩⟩ := Option.map_eq_some_iff.1 h₂
    exact Run.trans (.snoc .nil h₁) (ih hr)

/-- What holds after every run whose steps satisfy `ok` holds in every state
of such a run. -/
theorem Run.always {ok : σ → α → Prop} (Q : σ → Prop)
    (hq : ∀ {tr s}, Run step init tr s → Meets ok tr → Q s)
    {tr s} (h : Run step init tr s) (hok : Meets ok tr) : Always Q tr s := by
  refine ⟨fun p hp => ?_, hq h hok⟩
  obtain ⟨tr', hr', hsub⟩ := h.before p hp
  exact hq hr' (fun q hq' => hok q (hsub q hq'))

/-- Forward simulation: when every step that satisfies `ok` is matched by a step
of another system on the same action, every such run is matched by a run. -/
theorem Run.simulated {σ' : Type*} {step' : σ' → α → Option σ'} {init' : σ'} {ok : σ → α → Prop}
    (R : σ → σ' → Prop) (h0 : R init init')
    (hs : ∀ s a s' t, R s t → ok s a → step s a = some s' → ∃ t', step' t a = some t' ∧ R s' t')
    {tr s} (h : Run step init tr s) (hok : Meets ok tr) :
    ∃ tr' t, Run step' init' tr' t ∧ tr'.map Prod.snd = tr.map Prod.snd ∧ R s t := by
  induction h with
  | nil => exact ⟨[], init', .nil, rfl, h0⟩
  | @snoc tr s a s' _ ht ih =>
    rw [meets_snoc] at hok
    obtain ⟨tr', t, hrun, hacts, hR⟩ := ih hok.1
    obtain ⟨t', ht', hR'⟩ := hs _ _ _ _ hR hok.2 ht
    exact ⟨tr' ++ [(t, a)], t', .snoc hrun ht', by simp [hacts], hR'⟩

/-- When every step that satisfies `ok` is matched by a run of another system, every
such run is. -/
theorem Run.matched {σ' α' : Type*} {step' : σ' → α' → Option σ'} {init' : σ'} {ok : σ → α → Prop}
    (R : σ → σ' → Prop) (h0 : R init init')
    (hs : ∀ s a s' t, R s t → ok s a → step s a = some s' → ∃ tr t', Run step' t tr t' ∧ R s' t')
    {tr s} (h : Run step init tr s) (hok : Meets ok tr) :
    ∃ tr' t, Run step' init' tr' t ∧ R s t := by
  induction h with
  | nil => exact ⟨[], init', .nil, h0⟩
  | snoc _ ht ih =>
    rw [meets_snoc] at hok
    obtain ⟨tr', t, hrun, hR⟩ := ih hok.1
    obtain ⟨tr'', t', hrun', hR'⟩ := hs _ _ _ _ hR hok.2 ht
    exact ⟨tr' ++ tr'', t', hrun.trans hrun', hR'⟩

/-- When the steps that `work` picks lower a rank, and an action raises it by no more
than `g`, a run has no more of them than its first state and its actions allow. -/
theorem Run.countP_le_add {ok : σ → α → Prop} {work : α → Bool} {g : α → Nat} (rank : σ → Nat)
    (hs : ∀ s a s', ok s a → step s a = some s' → rank s' + (if work a then 1 else 0) ≤ rank s + g a)
    {tr s} (h : Run step init tr s) (hok : Meets ok tr) :
    tr.countP (fun p => work p.2) + rank s ≤ rank init + (tr.map fun p => g p.2).sum := by
  induction h with
  | nil => simp
  | @snoc tr s a s' _ ht ih =>
    rw [meets_snoc] at hok
    have hrest := ih hok.1
    have hstep := hs s a s' hok.2 ht
    simp only [List.countP_append, List.countP_singleton, List.map_append, List.map_singleton,
      List.sum_append_nat, List.sum_singleton]
    omega

/-- When no action raises the rank, its first state alone bounds them. -/
theorem Run.countP_le {ok : σ → α → Prop} {work : α → Bool} (rank : σ → Nat)
    (hs : ∀ s a s', ok s a → step s a = some s' → rank s' + (if work a then 1 else 0) ≤ rank s)
    {tr s} (h : Run step init tr s) (hok : Meets ok tr) :
    tr.countP (fun p => work p.2) + rank s ≤ rank init := by
  simpa using h.countP_le_add (g := fun _ => 0) rank hs hok

/-! ## One entry of a list -/

/-- Some entry of the list is, after those before it, as `P` says. -/
def Occurs (P : List α → α → Prop) (l : List α) : Prop :=
  ∃ pre a post, l = pre ++ a :: post ∧ P pre a

section
variable {P : List α → α → Prop} {l : List α} {a : α}

theorem not_occurs_nil : ¬ Occurs P [] := by
  rintro ⟨pre, a, post, hl, -⟩
  simp at hl

theorem Occurs.append (h : Occurs P l) (l' : List α) : Occurs P (l ++ l') := by
  obtain ⟨pre, a, post, rfl, hP⟩ := h
  exact ⟨pre, a, post ++ l', by simp, hP⟩

theorem occurs_concat : Occurs P (l ++ [a]) ↔ Occurs P l ∨ P l a := by
  constructor
  · rintro ⟨pre, b, post, hl, hP⟩
    rcases List.eq_nil_or_concat post with rfl | ⟨post, c, rfl⟩
    · obtain ⟨rfl, hb⟩ := List.append_inj' hl rfl
      cases hb
      exact .inr hP
    · rw [List.concat_eq_append, ← List.cons_append, ← List.append_assoc] at hl
      obtain ⟨rfl, -⟩ := List.append_inj' hl rfl
      exact .inl ⟨pre, b, post, rfl, hP⟩
  · rintro (h | h)
    · exact h.append [a]
    · exact ⟨l, a, [], rfl, h⟩

end

end Lib
