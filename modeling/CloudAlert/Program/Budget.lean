import CloudAlert.Program.Interleaving
import Mathlib.Data.List.Count
import Mathlib.Data.List.Perm.Subperm

/-!
# Calls that have to be earned

Some calls earn a credit, depending on their answer, and some calls spend one.
`p.Affords n` says that the program, starting with `n` credits, never spends one
that it does not have. When every job affords its calls, the calls that earn are at
least as many as those that spend, at every moment of every run
(`Run.spent_le_earned`).

A credit is also a debt: `p.Balances fin n` says in addition that the program ends with as
many credits as `fin` says. When every job ends with none, the calls that earn are as many
as those that spend whenever all threads are idle (`Run.earned_eq_spent`).
-/

universe u v w

variable {Call : Type u} {Ans : Call → Type v} {α β : Type w}

namespace Program

variable (post : (c : Call) → Ans c → Prop) (earns spends : (c : Call) → Ans c → Bool)

/-- With `n` credits the program can pay for all its calls, as long as these are
answered within `post`. -/
def Affords : ℕ → Program Call Ans α → Prop
  | _, ret _ => True
  | n, call c k => ∀ r, post c r → (spends c r → 0 < n) ∧
      Affords (n + (earns c r).toNat - (spends c r).toNat) (k r)

variable {post earns spends}

theorem affords_call {n : ℕ} {c : Call} {k : Ans c → Program Call Ans α}
    (hearns : ∀ r, ¬ earns c r) (hspends : ∀ r, ¬ spends c r)
    (hk : ∀ r, post c r → (k r).Affords post earns spends n) :
    (call c k).Affords post earns spends n := by
  intro r hr
  refine ⟨fun h => absurd h (hspends r), ?_⟩
  simp only [Bool.not_eq_true] at hearns hspends
  rw [hearns r, hspends r]
  exact hk r hr

theorem Affords.mono {n m : ℕ} (hnm : n ≤ m) {p : Program Call Ans α}
    (h : p.Affords post earns spends n) : p.Affords post earns spends m := by
  induction p generalizing n m with
  | ret a => trivial
  | call c k ih =>
      intro r hr
      obtain ⟨hpaid, hk⟩ := h r hr
      exact ⟨fun hs => Nat.lt_of_lt_of_le (hpaid hs) hnm, ih r (by omega) hk⟩

theorem Affords.bind {n : ℕ} {p : Program Call Ans α} {f : α → Program Call Ans β}
    (hp : p.Affords post earns spends n)
    (hf : ∀ a, (f a).Affords post earns spends 0) :
    (p >>= f).Affords post earns spends n := by
  induction p generalizing n with
  | ret a => exact (hf a).mono n.zero_le
  | call c k ih =>
      intro r hr
      obtain ⟨hpaid, hk⟩ := hp r hr
      exact ⟨hpaid, ih r hk⟩

/-- Code that never spends affords everything. -/
theorem Respects.affords {pre : Call → Prop} {fin : α → Prop} {p : Program Call Ans α}
    (h : p.Respects pre post fin) (hpre : ∀ c r, pre c → ¬ spends c r) (n : ℕ) :
    p.Affords post earns spends n := by
  induction p generalizing n with
  | ret a => trivial
  | call c k ih =>
      intro r hr
      exact ⟨fun hs => absurd hs (hpre c r h.1), ih r (h.2 r hr) _⟩

/-! ## Debts -/

variable (post earns spends) in
/-- With `n` credits the program can pay for all its calls, and has as many left at its
end as `fin` says. -/
def Balances (fin : ℕ → α → Prop) : ℕ → Program Call Ans α → Prop
  | n, ret a => fin n a
  | n, call c k => ∀ r, post c r → (spends c r → 0 < n) ∧
      Balances fin (n + (earns c r).toNat - (spends c r).toNat) (k r)

theorem Balances.affords {fin : ℕ → α → Prop} {n : ℕ} {p : Program Call Ans α}
    (h : p.Balances post earns spends fin n) : p.Affords post earns spends n := by
  induction p generalizing n with
  | ret a => trivial
  | call c k ih =>
      intro r hr
      obtain ⟨hpaid, hk⟩ := h r hr
      exact ⟨hpaid, ih r hk⟩

theorem Balances.bind {mid : ℕ → α → Prop} {fin : ℕ → β → Prop} {n : ℕ}
    {p : Program Call Ans α} {f : α → Program Call Ans β}
    (hp : p.Balances post earns spends mid n)
    (hf : ∀ m a, mid m a → (f a).Balances post earns spends fin m) :
    (p >>= f).Balances post earns spends fin n := by
  induction p generalizing n with
  | ret a => exact hf n a hp
  | call c k ih =>
      intro r hr
      obtain ⟨hpaid, hk⟩ := hp r hr
      exact ⟨hpaid, ih r hk⟩

theorem balances_call {fin : ℕ → α → Prop} {n : ℕ} {c : Call}
    {k : Ans c → Program Call Ans α} (hearns : ∀ r, ¬ earns c r)
    (hspends : ∀ r, ¬ spends c r)
    (hk : ∀ r, post c r → (k r).Balances post earns spends fin n) :
    (call c k).Balances post earns spends fin n := by
  intro r hr
  refine ⟨fun h => absurd h (hspends r), ?_⟩
  simp only [Bool.not_eq_true] at hearns hspends
  rw [hearns r, hspends r]
  exact hk r hr

/-- Code that neither earns nor spends has no debts. -/
theorem Respects.balances {pre : Call → Prop} {fin : α → Prop} {fin' : ℕ → α → Prop}
    {p : Program Call Ans α} (h : p.Respects pre post fin)
    (hpre : ∀ c r, pre c → ¬ earns c r ∧ ¬ spends c r) (hfin : ∀ a, fin a → fin' 0 a) :
    p.Balances post earns spends fin' 0 := by
  induction p with
  | ret a => exact hfin a h
  | call c k ih =>
      exact balances_call (fun r => (hpre c r h.1).1) (fun r => (hpre c r h.1).2)
        fun r hr => ih r (h.2 r hr)

end Program

namespace System

variable {ι σ : Type*} {L J : Type w}

theorem countP_concat {γ : Type*} (p : γ → Bool) (l : List γ) (a : γ) :
    (l ++ [a]).countP p = l.countP p + (p a).toNat := by
  rw [List.countP_append, List.countP_singleton]
  cases p a <;> rfl

/-- Counts compared thread by thread add up. -/
theorem countP_le_of_threads [DecidableEq ι] {t : List (Label Call Ans ι L J β)}
    {p q : Label Call Ans ι L J β → Bool}
    (h : ∀ i, t.countP (fun lbl => lbl.thread = i && p lbl) ≤
      t.countP fun lbl => lbl.thread = i && q lbl) : t.countP p ≤ t.countP q := by
  have hcount : ∀ (s : Label Call Ans ι L J β → Bool) (i : ι),
      ((t.filter s).map Label.thread).count i =
        t.countP fun lbl => lbl.thread = i && s lbl := by
    intro s i
    rw [List.count, List.countP_map, List.countP_filter]
    rfl
  have hsub : ((t.filter p).map Label.thread).Subperm
      ((t.filter q).map Label.thread) := by
    rw [List.subperm_ext_iff]
    intro i _
    rw [hcount, hcount]
    exact h i
  simpa only [List.length_map, ← List.countP_eq_length_filter] using hsub.length_le

variable [DecidableEq ι] {S : System Call Ans σ L J β}
  {post : (c : Call) → Ans c → Prop} {earns spends : (c : Call) → Ans c → Bool}

/-- The steps of a thread that earn, or that spend. -/
def countOf (i : ι) (P : (c : Call) → Ans c → Bool) (t : List (Label Call Ans ι L J β)) :
    ℕ :=
  t.countP fun lbl => lbl.thread = i && lbl.does P

theorem countOf_concat (i : ι) (P : (c : Call) → Ans c → Bool)
    (t : List (Label Call Ans ι L J β)) (lbl : Label Call Ans ι L J β) :
    countOf i P (t ++ [lbl]) =
      countOf i P t + (decide (lbl.thread = i) && lbl.does P).toNat :=
  countP_concat _ t lbl

/-- The thread has not spent more than it has earned, and can pay for what is still
to come from the rest. -/
structure Solvent (post : (c : Call) → Ans c → Prop)
    (earns spends : (c : Call) → Ans c → Bool)
    (t : List (Label Call Ans ι L J β)) (c : Config Call Ans ι σ L J β) (i : ι) :
    Prop where
  paid : countOf i spends t ≤ countOf i earns t
  busy : ∀ l j p, c.thread i = .busy l j p →
    p.Affords post earns spends (countOf i earns t - countOf i spends t)

theorem Solvent.step (hcode : ∀ j l, (S.code j l).Affords post earns spends 0)
    (hpost : ∀ o s, post o (S.exec o s).1) {t : List (Label Call Ans ι L J β)}
    {c c' : Config Call Ans ι σ L J β} {lbl : Label Call Ans ι L J β} {i : ι}
    (h : Solvent post earns spends t c i) (hstep : S.Step c lbl c') :
    Solvent post earns spends (t ++ [lbl]) c' i := by
  by_cases hi : i = lbl.thread
  · have hcount : ∀ P, countOf i P (t ++ [lbl]) = countOf i P t + (lbl.does P).toNat := by
      intro P
      rw [countOf_concat, decide_eq_true hi.symm, Bool.true_and]
    constructor
    · rw [hcount, hcount]
      cases hstep with
      | start => exact h.paid
      | finish => exact h.paid
      | call i' l j o k hbusy =>
          obtain rfl : i = i' := hi
          have hpaid := (h.busy l j _ hbusy _ (hpost o c.shared)).1
          have hbefore := h.paid
          rw [← Bool.toNat_eq_one] at hpaid
          have hone := Bool.toNat_le (spends o (S.exec o c.shared).1)
          change _ + (spends o _).toNat ≤ _ + (earns o _).toNat
          omega
    · intro l₁ j₁ p₁ hbusy₁
      rw [hcount, hcount]
      rcases hstep.busy_inv hbusy₁ with ⟨hne, -⟩ | ⟨rfl, -, rfl⟩ | ⟨o, k, rfl, hbusy, rfl⟩
      · exact absurd hi hne
      · exact (hcode j₁ l₁).mono (Nat.zero_le _)
      · have hk := (h.busy l₁ j₁ _ hbusy _ (hpost o c.shared)).2
        have hbefore := h.paid
        refine hk.mono ?_
        change _ ≤ _ + (earns o _).toNat - (_ + (spends o _).toNat)
        omega
  · have hsame : ∀ P, countOf i P (t ++ [lbl]) = countOf i P t := by
      intro P
      rw [countOf_concat, decide_eq_false (Ne.symm hi)]
      rfl
    constructor
    · rw [hsame, hsame]
      exact h.paid
    · rw [hsame, hsame, hstep.thread_of_ne hi]
      exact h.busy

/-- In every run the calls that earn are at least as many as those that spend. -/
theorem Run.spent_le_earned (hcode : ∀ j l, (S.code j l).Affords post earns spends 0)
    (hpost : ∀ o s, post o (S.exec o s).1)
    {ok : List (Label Call Ans ι L J β) → Config Call Ans ι σ L J β →
      Label Call Ans ι L J β → Prop}
    {s : σ} {memory : ι → L} {t : List (Label Call Ans ι L J β)}
    {c : Config Call Ans ι σ L J β} (h : S.Run ok (idleAt s memory) t c) :
    t.countP (fun lbl => lbl.does spends) ≤ t.countP fun lbl => lbl.does earns := by
  have hsolvent : ∀ i, Solvent post earns spends t c i := by
    intro i
    induction h with
    | nil => exact ⟨Nat.le_refl 0, fun l j p hbusy => by cases hbusy⟩
    | snoc _ hnext _ ih => exact ih.step hcode hpost (step_of_next S hnext)
  exact countP_le_of_threads fun i => (hsolvent i).paid

section Debts

variable {good : β → Prop}

/-- The thread has spent what it has earned, unless it is busy; then it is going to. -/
structure Balanced (post : (c : Call) → Ans c → Prop)
    (earns spends : (c : Call) → Ans c → Bool) (good : β → Prop)
    (t : List (Label Call Ans ι L J β)) (c : Config Call Ans ι σ L J β) (i : ι) :
    Prop where
  solvent : Solvent post earns spends t c i
  idle : ∀ l, c.thread i = .idle l → countOf i earns t = countOf i spends t
  busy : ∀ l j p, c.thread i = .busy l j p →
    p.Balances post earns spends (fun n out => good out.2 → n = 0)
      (countOf i earns t - countOf i spends t)

theorem Balanced.step
    (hcode : ∀ j l,
      (S.code j l).Balances post earns spends (fun n out => good out.2 → n = 0) 0)
    (hpost : ∀ o s, post o (S.exec o s).1) {t : List (Label Call Ans ι L J β)}
    {c c' : Config Call Ans ι σ L J β} {lbl : Label Call Ans ι L J β} {i : ι}
    (h : Balanced post earns spends good t c i) (hstep : S.Step c lbl c')
    (hgood : ∀ b, lbl.kind = .finish b → good b) :
    Balanced post earns spends good (t ++ [lbl]) c' i := by
  have hpaid := h.solvent.paid
  refine ⟨h.solvent.step (fun j l => (hcode j l).affords) hpost hstep, fun l' hidle => ?_,
    fun l j p hbusy' => ?_⟩
  · rcases hstep.idle_inv hidle with ⟨hne, hidle⟩ | ⟨l, j, b, rfl, hbusy⟩
    · rw [countOf_concat, countOf_concat, decide_eq_false (Ne.symm hne)]
      exact h.idle l' hidle
    · rw [countOf_concat, countOf_concat]
      have hzero : countOf i earns t - countOf i spends t = 0 :=
        h.busy l j _ hbusy (hgood b rfl)
      simp only [Label.does, Bool.and_false, Bool.toNat_false, Nat.add_zero]
      omega
  · rw [countOf_concat, countOf_concat]
    rcases hstep.busy_inv hbusy' with ⟨hne, hbusy⟩ | ⟨rfl, hidle, rfl⟩ | ⟨o, k,
      rfl, hbusy, rfl⟩
    · rw [decide_eq_false (Ne.symm hne)]
      exact h.busy l j p hbusy
    · simpa only [Label.does, Bool.and_false, Bool.toNat_false,
        Nat.add_zero, h.idle l hidle, Nat.sub_self] using hcode j l
    · have hk := (h.busy l j _ hbusy _ (hpost o c.shared)).2
      simp only [Label.does, decide_true, Bool.true_and]
      rwa [← Nat.sub_sub, Nat.sub_add_comm hpaid]

/-- Where every job that has ended has ended well, and all threads are idle, the calls
that earn are as many as those that spend. -/
theorem Run.earned_eq_spent
    (hcode : ∀ j l,
      (S.code j l).Balances post earns spends (fun n out => good out.2 → n = 0) 0)
    (hpost : ∀ o s, post o (S.exec o s).1)
    {ok : List (Label Call Ans ι L J β) → Config Call Ans ι σ L J β →
      Label Call Ans ι L J β → Prop} (hgood : ∀ t c lbl, ok t c lbl →
        ∀ b, lbl.kind = .finish b → good b)
    {s : σ} {memory : ι → L} {t : List (Label Call Ans ι L J β)}
    {c : Config Call Ans ι σ L J β} (h : S.Run ok (idleAt s memory) t c)
    (hidle : ∀ i, (c.thread i).isIdle) :
    t.countP (fun lbl => lbl.does earns) = t.countP fun lbl => lbl.does spends := by
  have hbalanced : ∀ i, Balanced post earns spends good t c i := by
    intro i
    clear hidle
    induction h with
    | nil =>
        exact ⟨⟨Nat.le_refl 0, fun l j p hbusy => by cases hbusy⟩, fun l _ => rfl,
          fun l j p hbusy => by cases hbusy⟩
    | snoc _ hnext hok ih =>
        exact ih.step hcode hpost (step_of_next S hnext) (hgood _ _ _ hok)
  refine Nat.le_antisymm (countP_le_of_threads fun i => ?_)
    (countP_le_of_threads fun i => (hbalanced i).solvent.paid)
  have hi := hidle i
  cases hthread : c.thread i with
  | idle l => exact Nat.le_of_eq ((hbalanced i).idle l hthread)
  | busy l j p => simp [hthread, Thread.isIdle] at hi

end Debts

end System
