import CloudAlert.Engine.Reference

/-!
# The timer thread

`TimerThreadFunc` checks, then sleeps for a second, so the next check comes a second
and the duration of the check later, while a time alert is found by the second of the
check. `Covers` says that no second is passed over between the first check and the last;
`covers_iff` says when that is so: no check may end its second later than it started it,
a second on. With checks that take any time at all the phase grows until one does
(`overruns_of_drift`).
-/

namespace CloudAlert

open Program

/-! ## The instants of the checks -/

/-- When the checks begin, in milliseconds, if the first begins at `t₀` and the `i`-th
takes `d i`. -/
def checkInstant (t₀ : ℕ) (d : ℕ → ℕ) : ℕ → ℕ
  | 0 => t₀
  | i + 1 => checkInstant t₀ d i + d i + 1000

/-- The clock second of an instant. -/
def secondOf (t : ℕ) : ℕ := t / 1000

/-- Every second from that of the first check to that of the check `n` is the second of
a check. -/
def Covers (t₀ : ℕ) (d : ℕ → ℕ) (n : ℕ) : Prop :=
  ∀ s, secondOf t₀ ≤ s → s ≤ secondOf (checkInstant t₀ d n) →
    ∃ i ≤ n, secondOf (checkInstant t₀ d i) = s

section

variable (t₀ : ℕ) (d : ℕ → ℕ)

theorem secondOf_succ (i : ℕ) :
    secondOf (checkInstant t₀ d (i + 1)) =
      secondOf (checkInstant t₀ d i) + 1 + (checkInstant t₀ d i % 1000 + d i) / 1000 := by
  simp only [checkInstant, secondOf]
  omega

theorem secondOf_mono {i j : ℕ} (h : i ≤ j) :
    secondOf (checkInstant t₀ d i) ≤ secondOf (checkInstant t₀ d j) := by
  induction h with
  | refl => exact Nat.le_refl _
  | step _ ih =>
      rw [secondOf_succ]
      omega

variable {t₀ d}

/-- Without an overrun the checks go from second to second. -/
theorem secondOf_eq_add {n : ℕ}
    (h : ∀ i < n, checkInstant t₀ d i % 1000 + d i < 1000) {i : ℕ} (hi : i ≤ n) :
    secondOf (checkInstant t₀ d i) = secondOf t₀ + i := by
  induction i with
  | zero => rfl
  | succ i ih =>
      rw [secondOf_succ, ih (Nat.le_of_succ_le hi), Nat.div_eq_of_lt (h i hi)]
      omega

theorem covers_iff (n : ℕ) :
    Covers t₀ d n ↔ ∀ i < n, checkInstant t₀ d i % 1000 + d i < 1000 := by
  constructor
  · intro hcovers i hi
    by_contra hover
    have hskip : secondOf (checkInstant t₀ d i) + 2 ≤
        secondOf (checkInstant t₀ d (i + 1)) := by
      rw [secondOf_succ]
      omega
    obtain ⟨j, -, hj⟩ := hcovers (secondOf (checkInstant t₀ d i) + 1)
      ((secondOf_mono t₀ d (Nat.zero_le i)).trans (Nat.le_succ _))
      ((Nat.le_of_succ_le hskip).trans (secondOf_mono t₀ d hi))
    -- the checks up to `i` come before the skipped second, the others after it
    rcases Nat.lt_or_ge i j with hlt | hge
    · have hafter := secondOf_mono t₀ d (show i + 1 ≤ j from hlt)
      omega
    · have hbefore := secondOf_mono t₀ d hge
      omega
  · intro h s hfirst hlast
    rw [secondOf_eq_add h (Nat.le_refl n)] at hlast
    refine ⟨s - secondOf t₀, by omega, ?_⟩
    rw [secondOf_eq_add h (by omega)]
    omega

/-- If every check takes at least a millisecond, one of the first thousand overruns. -/
theorem overruns_of_drift (h : ∀ i, 1 ≤ d i) :
    ∃ i < 1000, 1000 ≤ checkInstant t₀ d i % 1000 + d i := by
  by_contra hnone
  push Not at hnone
  have hphase : ∀ i ≤ 1000, i ≤ checkInstant t₀ d i % 1000 := by
    intro i
    induction i with
    | zero => exact fun _ => Nat.zero_le _
    | succ i ih =>
        intro hi
        have hstep := hnone i hi
        have hd := h i
        have hprev := ih (Nat.le_of_succ_le hi)
        simp only [checkInstant]
        omega
  have hlast := hphase 1000 (Nat.le_refl _)
  omega

end

/-! ## Time alerts -/

/-- The alert `a` was found and triggered between the two states. -/
def TriggeredBy (a : ℤ) (w w' : World) : Prop :=
  ∃ r ∈ w.db.alerts.rows, r.id = a ∧ ∃ ts, r.triggered ts ∈ w'.db.alerts.rows

/-- A check triggers every alert that is pending for the time it reads. -/
theorem triggeredBy_timerCheck {w w' : World} {a : ℤ}
    (h : run exec checkTimeAlerts w = (true, w'))
    (hdue : ∃ r ∈ w.db.alerts.rows, r.id = a ∧ dueTime (w.clock 0).hms r) :
    TriggeredBy a w w' := by
  obtain ⟨r, hr, hid, hdue⟩ := hdue
  obtain ⟨stamp, notes, hswept⟩ := (timerCheck_spec h).2
  refine ⟨r, hr, hid, stamp r, ?_⟩
  have hmem : r ∈ w.db.alerts.select (dueTime (w.clock 0).hms) :=
    (Table.mem_select _).mpr ⟨hr, hdue⟩
  rw [hswept.rows, List.mem_map]
  exact ⟨r, hr, if_pos hmem⟩

/-- The timer thread meets its purpose: it has a check in every second from that of the
first check to that of the check `n`, and it triggers every time alert that is pending
throughout its second. The check `i` runs in the state `w i`, in which the clock shows
the local time `zone` gives for its second, and it completes. -/
def TimerMeets (zone : ℕ → LocalTime) (t₀ : ℕ) (d : ℕ → ℕ) (n : ℕ) : Prop :=
  Covers t₀ d n ∧
    ∀ w w' : ℕ → World,
      (∀ i, (w i).clock 0 = zone (secondOf (checkInstant t₀ d i))) →
      (∀ i, run exec checkTimeAlerts (w i) = (true, w' i)) →
      ∀ s, secondOf t₀ ≤ s → s ≤ secondOf (checkInstant t₀ d n) → ∀ a,
        (∀ i, secondOf (checkInstant t₀ d i) = s →
          ∃ r ∈ (w i).db.alerts.rows, r.id = a ∧ dueTime (zone s).hms r) →
        ∃ i ≤ n, secondOf (checkInstant t₀ d i) = s ∧ TriggeredBy a (w i) (w' i)

/-- No second is passed over, and no time alert missed, exactly if no check overruns the
end of its second. -/
theorem timerMeets_iff (zone : ℕ → LocalTime) (t₀ : ℕ) (d : ℕ → ℕ) (n : ℕ) :
    TimerMeets zone t₀ d n ↔ ∀ i < n, checkInstant t₀ d i % 1000 + d i < 1000 := by
  rw [← covers_iff]
  refine ⟨And.left, fun hcovers => ⟨hcovers, ?_⟩⟩
  intro w w' hclock hrun s hfirst hlast a hpending
  obtain ⟨i, hi, hs⟩ := hcovers s hfirst hlast
  refine ⟨i, hi, hs, triggeredBy_timerCheck (hrun i) ?_⟩
  rw [hclock i, hs]
  exact hpending i hs

/-- Checks that take one millisecond: the first begins in the last millisecond of its
second, and the whole next second is passed over. -/
theorem second_is_skipped :
    (∀ i : ℕ, (fun _ => 1) i < 1000) ∧
      ¬ TimerMeets (fun _ => ⟨2025, 6, 0, 9, 30, 0⟩) 999 (fun _ => 1) 1 := by
  refine ⟨fun _ => show 1 < 1000 by decide, fun h => ?_⟩
  obtain ⟨i, hi, hsecond⟩ := h.1 1 (by decide) (by decide)
  rcases Nat.le_one_iff_eq_zero_or_eq_one.mp hi with rfl | rfl
  · exact absurd hsecond (by decide)
  · exact absurd hsecond (by decide)

end CloudAlert
