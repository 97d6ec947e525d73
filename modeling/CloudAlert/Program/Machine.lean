import Mathlib.Data.List.Basic

/-!
# Machines

A `Machine` says what each action makes of a state, or that it is not possible
there. A run is a list of actions that are possible one after the other; `Run ok`
are the runs all of whose actions satisfy `ok`, which sees the trace so far, the
state before the action and the action.

`Run.invariant` is the induction rule: what holds at the start and is kept by every
action holds wherever a run leads. `Run.simulated` is the simulation rule. `CanReach` says
that some actions lead to a goal, and `Leads` that all do.
-/

/-- What an action makes of a state; `none` where it is not possible. -/
structure Machine (σ A : Type*) where
  next : σ → A → Option σ

namespace Machine

variable {σ A : Type*} (M : Machine σ A)

/-- The runs from `s₀` all of whose actions satisfy `ok`, with their trace. -/
inductive Run (ok : List A → σ → A → Prop) (s₀ : σ) : List A → σ → Prop where
  | nil : Run ok s₀ [] s₀
  | snoc {t s a s'} (run : Run ok s₀ t s) (next : M.next s a = some s')
      (hok : ok t s a) : Run ok s₀ (t ++ [a]) s'

/-- Every run, whatever its actions. -/
abbrev AnyRun (s₀ : σ) := M.Run (fun _ _ _ => True) s₀

/-- Takes the actions one after the other; `none` when one of them is not possible. -/
def follow (s : σ) : List A → Option σ
  | [] => some s
  | a :: as => (M.next s a).bind fun s' => follow s' as

variable {M} {ok : List A → σ → A → Prop} {s₀ s s' : σ} {t : List A}

theorem Run.follow_append {as : List A} (h : M.AnyRun s₀ t s)
    (hf : M.follow s as = some s') : M.AnyRun s₀ (t ++ as) s' := by
  induction as generalizing t s with
  | nil =>
      obtain rfl := Option.some.inj hf
      simpa using h
  | cons a as ih =>
      obtain ⟨s₁, hnext, hrest⟩ := Option.bind_eq_some_iff.mp hf
      have hstep : M.AnyRun s₀ (t ++ [a]) s₁ := .snoc h hnext trivial
      simpa using ih hstep hrest

theorem run_of_follow {as : List A} (hf : M.follow s₀ as = some s) :
    M.AnyRun s₀ as s := by
  simpa using Run.follow_append (t := []) .nil hf

theorem Run.split {t' : List A} (h : M.AnyRun s₀ (t ++ t') s) :
    ∃ s₁, M.AnyRun s₀ t s₁ ∧ M.follow s₁ t' = some s := by
  induction t' generalizing t with
  | nil => exact ⟨s, List.append_nil t ▸ h, rfl⟩
  | cons a t' ih =>
      rw [List.append_cons] at h
      obtain ⟨s₂, hfirst, hrest⟩ := ih h
      generalize htrace : t ++ [a] = trace at hfirst
      cases hfirst with
      | nil => simp at htrace
      | snoc run next _ =>
          obtain ⟨rfl, hlast⟩ := List.append_inj' htrace rfl
          obtain rfl := (List.cons.inj hlast).1
          refine ⟨_, run, ?_⟩
          rw [follow, next]
          exact hrest

variable (M) in
/-- Takes the actions one after the other after the trace `t`; `none` when one of them is
not possible or not allowed. -/
def followIf (allowed : List A → σ → A → Bool) (t : List A) (s : σ) : List A → Option σ
  | [] => some s
  | a :: as =>
      if allowed t s a then
        (M.next s a).bind fun s' => followIf allowed (t ++ [a]) s' as
      else none

theorem Run.followIf_append {allowed : List A → σ → A → Bool} {as : List A}
    (h : M.Run (fun t s a => allowed t s a) s₀ t s)
    (hf : M.followIf allowed t s as = some s') :
    M.Run (fun t s a => allowed t s a) s₀ (t ++ as) s' := by
  induction as generalizing t s with
  | nil =>
      obtain rfl := Option.some.inj hf
      simpa using h
  | cons a as ih =>
      obtain ⟨hallowed, hrest⟩ := Option.ite_none_right_eq_some.mp hf
      obtain ⟨s₁, hnext, hrest⟩ := Option.bind_eq_some_iff.mp hrest
      simpa using ih (h.snoc hnext hallowed) hrest

theorem Run.mono {ok' : List A → σ → A → Prop} (h : M.Run ok s₀ t s)
    (hok : ∀ t s a, ok t s a → ok' t s a) : M.Run ok' s₀ t s := by
  induction h with
  | nil => exact .nil
  | snoc _ hnext h ih => exact .snoc ih hnext (hok _ _ _ h)

variable (M) in
/-- Actions that satisfy `own` can lead to a state in `goal`. -/
def CanReach (own : A → Prop) (goal : σ → Prop) (s : σ) : Prop :=
  ∃ steps s', (∀ a ∈ steps, own a) ∧ M.follow s steps = some s' ∧ goal s'

section

variable {own : A → Prop} {goal : σ → Prop}

theorem CanReach.here (h : goal s) : M.CanReach own goal s :=
  ⟨[], s, List.forall_mem_nil _, rfl, h⟩

theorem CanReach.step {a : A} (ha : own a) (hnext : M.next s a = some s')
    (h : M.CanReach own goal s') : M.CanReach own goal s := by
  obtain ⟨steps, s'', hown, hfollow, hgoal⟩ := h
  refine ⟨a :: steps, s'', List.forall_mem_cons.mpr ⟨ha, hown⟩, ?_, hgoal⟩
  rw [follow, hnext]
  exact hfollow

theorem CanReach.trans {goal' : σ → Prop} (h : M.CanReach own goal s)
    (hrest : ∀ s', goal s' → M.CanReach own goal' s') : M.CanReach own goal' s := by
  obtain ⟨steps, s', hown, hfollow, hgoal⟩ := h
  induction steps generalizing s with
  | nil =>
      obtain rfl := Option.some.inj hfollow
      exact hrest _ hgoal
  | cons a steps ih =>
      obtain ⟨ha, hown⟩ := List.forall_mem_cons.mp hown
      obtain ⟨s₁, hnext, hfollow⟩ := Option.bind_eq_some_iff.mp hfollow
      exact .step ha hnext (ih hown hfollow)

end

/-- Whatever actions that satisfy `own` are taken, they lead to a state in `goal`. -/
inductive Leads (M : Machine σ A) (own : A → Prop) (goal : σ → Prop) : σ → Prop where
  | here {s : σ} (h : goal s) : Leads M own goal s
  | step {s : σ} (able : ∀ a, own a → (M.next s a).isSome)
      (leads : ∀ a s', own a → M.next s a = some s' → Leads M own goal s') :
      Leads M own goal s

section

variable {own : A → Prop} {goal : σ → Prop}

theorem Leads.trans {goal' : σ → Prop} (h : M.Leads own goal s)
    (hrest : ∀ s', goal s' → M.Leads own goal' s') : M.Leads own goal' s := by
  induction h with
  | here h => exact hrest _ h
  | step able _ ih => exact .step able ih

theorem Leads.mono {goal' : σ → Prop} (h : M.Leads own goal s)
    (hgoal : ∀ s', goal s' → goal' s') : M.Leads own goal' s :=
  h.trans fun s' hs' => .here (hgoal s' hs')

/-- Every sequence of such actions comes to a state in `goal`. -/
theorem Leads.follow (h : M.Leads own goal s) (as : ℕ → A) (has : ∀ n, own (as n)) :
    ∃ n s', M.follow s ((List.range n).map as) = some s' ∧ goal s' := by
  induction h generalizing as with
  | here h => exact ⟨0, _, rfl, h⟩
  | step able _ ih =>
      obtain ⟨s₁, hnext⟩ := Option.isSome_iff_exists.mp (able (as 0) (has 0))
      obtain ⟨n, s', hfollow, hgoal⟩ :=
        ih (as 0) s₁ (has 0) hnext (fun n => as (n + 1)) fun n => has (n + 1)
      refine ⟨n + 1, s', ?_, hgoal⟩
      rw [List.range_succ_eq_map, List.map_cons, List.map_map, Machine.follow, hnext]
      exact hfollow

end

/-- The invariant rule. -/
theorem Run.invariant {inv : σ → Prop}
    (hstep : ∀ s a s', inv s → M.next s a = some s' → inv s')
    (h : M.Run ok s₀ t s) (h₀ : inv s₀) : inv s := by
  induction h with
  | nil => exact h₀
  | snoc _ hnext _ ih => exact hstep _ _ _ ih hnext

/-- The simulation rule: where an action of `M` is matched by actions of `N` that keep
`R`, a run of `M` is matched by a run of `N`. -/
theorem Run.simulated {τ B : Type*} {N : Machine τ B} {R : σ → List B → τ → Prop} {u₀ : τ}
    (hstep : ∀ t s a s' t' u, R s t' u → N.AnyRun u₀ t' u → ok t s a →
      M.next s a = some s' →
      ∃ as u', N.follow u as = some u' ∧ R s' (t' ++ as) u')
    (h : M.Run ok s₀ t s) (h₀ : R s₀ [] u₀) : ∃ t' u, N.AnyRun u₀ t' u ∧ R s t' u := by
  induction h with
  | nil => exact ⟨[], u₀, .nil, h₀⟩
  | snoc _ hnext hok ih =>
      obtain ⟨t', u, hrun, hrel⟩ := ih
      obtain ⟨as, u', hfollow, hrel'⟩ := hstep _ _ _ _ _ _ hrel hrun hok hnext
      exact ⟨t' ++ as, u', hrun.follow_append hfollow, hrel'⟩

/-- What an action keeps exactly if it satisfies `ok` holds after exactly the runs whose
actions all do. -/
theorem run_iff_of_step {inv kept : σ → Prop} {ok : σ → A → Prop}
    (hinv : ∀ s a s', inv s → M.next s a = some s' → inv s')
    (hkept : ∀ s a s', inv s → M.next s a = some s' → (kept s' ↔ kept s ∧ ok s a))
    (hinv₀ : inv s₀) (hkept₀ : kept s₀) :
    M.Run (fun _ s a => ok s a) s₀ t s ↔ M.AnyRun s₀ t s ∧ kept s := by
  constructor
  · intro h
    have hany : M.AnyRun s₀ t s := h.mono fun _ _ _ _ => trivial
    refine ⟨hany, ?_⟩
    induction h with
    | nil => exact hkept₀
    | snoc h hnext hok ih =>
        have hbefore := h.mono fun _ _ _ _ => trivial
        exact (hkept _ _ _ (hbefore.invariant hinv hinv₀) hnext).mpr ⟨ih hbefore, hok⟩
  · rintro ⟨h, hs⟩
    induction h with
    | nil => exact .nil
    | snoc h hnext _ ih =>
        obtain ⟨hbefore, hok⟩ := (hkept _ _ _ (h.invariant hinv hinv₀) hnext).mp hs
        exact .snoc (ih hbefore) hnext hok

end Machine
