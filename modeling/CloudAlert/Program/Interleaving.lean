import CloudAlert.Program.Contract

/-!
# Interleaved programs

A `System` gives an interpretation `exec` of the calls and, for each job, the
program `code j l` that a thread with private memory `l` runs to do the job.
A thread is idle or busy; one step starts a job on an idle thread, makes one
call of a busy one, or ends a job and stores the new private memory. Any number
of threads may be busy at once, and a run is any sequence of such steps, so it
covers every order in which the calls of different threads can happen.

`Run ok` are the runs all of whose steps satisfy `ok`, which sees the trace so
far, the state before the step and the step. A step changes the state of its own
thread only (`Step.thread_of_ne`), and `Step.idle_inv` and `Step.busy_inv` say what a
thread may have done before it is where it is. `Run.keeps` is the invariant rule: jobs
that keep a call contract keep it in every interleaving.
-/

universe u v w

/-- What a thread does: idle with private memory `l`, or busy with job `j`,
started with private memory `l`, the program `p` still to run. -/
inductive Thread (Call : Type u) (Ans : Call → Type v) (L J β : Type w) where
  | idle (l : L)
  | busy (l : L) (j : J) (p : Program Call Ans (L × β))

/-- The thread has no job. -/
def Thread.isIdle {Call : Type u} {Ans : Call → Type v} {L J β : Type w} :
    Thread Call Ans L J β → Bool
  | .idle _ => true
  | .busy _ _ _ => false

/-- A state of the system: the shared state and what each thread does. -/
@[ext] structure Config (Call : Type u) (Ans : Call → Type v) (ι σ : Type*)
    (L J β : Type w) where
  shared : σ
  thread : ι → Thread Call Ans L J β

/-- What happens in a step. -/
inductive StepKind (Call : Type u) (Ans : Call → Type v) (β : Type w) where
  | start
  | call (c : Call) (r : Ans c)
  | finish (b : β)

/-- A step as it appears in a trace: the thread, the private memory and the job
it runs, and what happened. -/
structure Label (Call : Type u) (Ans : Call → Type v) (ι : Type*)
    (L J β : Type w) where
  thread : ι
  memory : L
  job : J
  kind : StepKind Call Ans β

/-- The step is a call that, with its answer, satisfies `P`. -/
def Label.does {Call : Type u} {Ans : Call → Type v} {ι : Type*} {L J β : Type w}
    (lbl : Label Call Ans ι L J β) (P : (c : Call) → Ans c → Bool) : Bool :=
  match lbl.kind with
  | .call c r => P c r
  | _ => false

/-- The scheduler's choices. -/
inductive Choice (ι J : Type*) where
  | start (i : ι) (j : J)
  | step (i : ι)

/-- An interpretation of the calls and the program of each job. -/
structure System (Call : Type u) (Ans : Call → Type v) (σ : Type*)
    (L J β : Type w) where
  exec : (c : Call) → σ → Ans c × σ
  code : J → L → Program Call Ans (L × β)

namespace System

variable {Call : Type u} {Ans : Call → Type v} {ι σ : Type*} {L J β : Type w}
  [DecidableEq ι]

/-- The state in which every thread is idle. -/
def idleAt (s : σ) (memory : ι → L) : Config Call Ans ι σ L J β :=
  ⟨s, fun i => .idle (memory i)⟩

variable (S : System Call Ans σ L J β)

/-- One step; `none` when the chosen thread cannot make it. -/
def next (c : Config Call Ans ι σ L J β) :
    Choice ι J → Option (Label Call Ans ι L J β × Config Call Ans ι σ L J β)
  | .start i j =>
      match c.thread i with
      | .idle l => some (⟨i, l, j, .start⟩,
          ⟨c.shared, Function.update c.thread i (.busy l j (S.code j l))⟩)
      | .busy _ _ _ => none
  | .step i =>
      match c.thread i with
      | .idle _ => none
      | .busy l j (.call o k) =>
          let out := S.exec o c.shared
          some (⟨i, l, j, .call o out.1⟩,
            ⟨out.2, Function.update c.thread i (.busy l j (k out.1))⟩)
      | .busy l j (.ret (l', b)) => some (⟨i, l, j, .finish b⟩,
          ⟨c.shared, Function.update c.thread i (.idle l')⟩)

/-- What a step can be. -/
inductive Step (c : Config Call Ans ι σ L J β) :
    Label Call Ans ι L J β → Config Call Ans ι σ L J β → Prop where
  | start (i : ι) (l : L) (j : J) (h : c.thread i = .idle l) :
      Step c ⟨i, l, j, .start⟩
        ⟨c.shared, Function.update c.thread i (.busy l j (S.code j l))⟩
  | call (i : ι) (l : L) (j : J) (o : Call) (k : Ans o → Program Call Ans (L × β))
      (h : c.thread i = .busy l j (.call o k)) :
      Step c ⟨i, l, j, .call o (S.exec o c.shared).1⟩
        ⟨(S.exec o c.shared).2,
          Function.update c.thread i (.busy l j (k (S.exec o c.shared).1))⟩
  | finish (i : ι) (l : L) (j : J) (l' : L) (b : β)
      (h : c.thread i = .busy l j (.ret (l', b))) :
      Step c ⟨i, l, j, .finish b⟩
        ⟨c.shared, Function.update c.thread i (.idle l')⟩

theorem step_of_next {c c' : Config Call Ans ι σ L J β} {a : Choice ι J}
    {lbl : Label Call Ans ι L J β} (h : S.next c a = some (lbl, c')) :
    S.Step c lbl c' := by
  cases a with
  | start i j =>
      simp only [next] at h
      split at h
      · rename_i l hl
        obtain ⟨rfl, rfl⟩ := Prod.mk.inj (Option.some.inj h)
        exact .start i l j hl
      · cases h
  | step i =>
      simp only [next] at h
      split at h
      · cases h
      · rename_i l j o k hl
        obtain ⟨rfl, rfl⟩ := Prod.mk.inj (Option.some.inj h)
        exact .call i l j o k hl
      · rename_i l j l' b hl
        obtain ⟨rfl, rfl⟩ := Prod.mk.inj (Option.some.inj h)
        exact .finish i l j l' b hl

theorem label_of_next_start {c c' : Config Call Ans ι σ L J β} {i : ι} {j : J}
    {lbl : Label Call Ans ι L J β} (h : S.next c (.start i j) = some (lbl, c')) :
    ∃ l, lbl = ⟨i, l, j, .start⟩ := by
  simp only [next] at h
  split at h
  · obtain ⟨rfl, -⟩ := Prod.mk.inj (Option.some.inj h)
    exact ⟨_, rfl⟩
  · cases h

theorem choice_of_start {c c' : Config Call Ans ι σ L J β} {a : Choice ι J}
    {lbl : Label Call Ans ι L J β} (h : S.next c a = some (lbl, c'))
    (hkind : lbl.kind = .start) : a = .start lbl.thread lbl.job := by
  cases a with
  | start i j =>
      obtain ⟨l, rfl⟩ := label_of_next_start S h
      rfl
  | step i =>
      simp only [next] at h
      split at h
      · cases h
      · obtain ⟨rfl, -⟩ := Prod.mk.inj (Option.some.inj h)
        cases hkind
      · obtain ⟨rfl, -⟩ := Prod.mk.inj (Option.some.inj h)
        cases hkind

/-- The runs from `c₀` all of whose steps satisfy `ok`, with their trace. -/
inductive Run
    (ok : List (Label Call Ans ι L J β) → Config Call Ans ι σ L J β →
      Label Call Ans ι L J β → Prop)
    (c₀ : Config Call Ans ι σ L J β) :
    List (Label Call Ans ι L J β) → Config Call Ans ι σ L J β → Prop where
  | nil : Run ok c₀ [] c₀
  | snoc {t c a lbl c'} (run : Run ok c₀ t c)
      (next : S.next c a = some (lbl, c')) (hok : ok t c lbl) :
      Run ok c₀ (t ++ [lbl]) c'

/-- Every run, whatever its steps. -/
abbrev AnyRun (c₀ : Config Call Ans ι σ L J β) :=
  S.Run (fun _ _ _ => True) c₀

/-- Follows a list of scheduler choices; `none` when one of them is not
possible. -/
def follow (c : Config Call Ans ι σ L J β) :
    List (Choice ι J) →
      Option (List (Label Call Ans ι L J β) × Config Call Ans ι σ L J β)
  | [] => some ([], c)
  | a :: as => do
      let (lbl, c₁) ← S.next c a
      let (t, c') ← follow c₁ as
      return (lbl :: t, c')

variable {S}
variable {ok ok' : List (Label Call Ans ι L J β) → Config Call Ans ι σ L J β →
      Label Call Ans ι L J β → Prop}
  {c₀ c c' : Config Call Ans ι σ L J β} {t : List (Label Call Ans ι L J β)}

theorem Run.mono (h : S.Run ok c₀ t c)
    (hok : ∀ t c lbl, ok t c lbl → ok' t c lbl) : S.Run ok' c₀ t c := by
  induction h with
  | nil => exact .nil
  | snoc _ hnext h ih => exact .snoc ih hnext (hok _ _ _ h)

theorem Run.any (h : S.Run ok c₀ t c) : S.AnyRun c₀ t c :=
  h.mono fun _ _ _ _ => trivial

/-- A property that every step of every `ok`-run has may be added to `ok`. -/
theorem Run.strengthen
    (hstep : ∀ t c a lbl c', S.Run ok c₀ t c → S.next c a = some (lbl, c') →
      ok t c lbl → ok' t c lbl)
    (h : S.Run ok c₀ t c) : S.Run ok' c₀ t c := by
  induction h with
  | nil => exact .nil
  | snoc hrun hnext h ih => exact .snoc ih hnext (hstep _ _ _ _ _ hrun hnext h)

theorem Run.append {t' : List (Label Call Ans ι L J β)} (h : S.AnyRun c₀ t c)
    (h' : S.AnyRun c t' c') : S.AnyRun c₀ (t ++ t') c' := by
  induction h' with
  | nil => simpa using h
  | snoc _ hnext _ ih =>
      rw [← List.append_assoc]
      exact .snoc ih hnext trivial

theorem Run.split (h : S.AnyRun c₀ t c) {t₁ t₂ : List (Label Call Ans ι L J β)}
    (ht : t = t₁ ++ t₂) : ∃ c₁, S.AnyRun c₀ t₁ c₁ ∧ S.AnyRun c₁ t₂ c := by
  induction h generalizing t₂ with
  | nil =>
      obtain ⟨rfl, rfl⟩ := List.append_eq_nil_iff.mp ht.symm
      exact ⟨c₀, .nil, .nil⟩
  | @snoc t c a lbl c' hrun hnext _ ih =>
      rcases t₂.eq_nil_or_concat with rfl | ⟨t₂, last, rfl⟩
      · rw [List.append_nil] at ht
        exact ⟨c', ht ▸ hrun.snoc hnext trivial, .nil⟩
      · rw [List.concat_eq_append, ← List.append_assoc] at ht
        obtain ⟨hinit, hlast⟩ := List.append_inj' ht rfl
        obtain rfl := List.singleton_inj.mp hlast
        obtain ⟨c₁, h₁, h₂⟩ := ih hinit
        rw [List.concat_eq_append]
        exact ⟨c₁, h₁, h₂.snoc hnext trivial⟩

theorem Run.head {lbl : Label Call Ans ι L J β} (h : S.AnyRun c₀ (lbl :: t) c) :
    ∃ c₁, S.Step c₀ lbl c₁ ∧ S.AnyRun c₁ t c := by
  obtain ⟨c₁, h₁, h₂⟩ := h.split (show lbl :: t = [lbl] ++ t from rfl)
  generalize ht : [lbl] = t' at h₁
  cases h₁ with
  | nil => cases ht
  | @snoc t' c a lbl' _ hrun hnext =>
      cases t' with
      | nil =>
          obtain rfl := List.singleton_inj.mp ht
          generalize ht' : ([] : List (Label Call Ans ι L J β)) = t' at hrun
          cases hrun with
          | nil => exact ⟨c₁, step_of_next S hnext, h₂⟩
          | snoc => exact absurd ht'.symm (by simp)
      | cons => simp at ht

theorem Run.follow_append {as : List (Choice ι J)}
    {t' : List (Label Call Ans ι L J β)} (h : S.AnyRun c₀ t c)
    (hf : S.follow c as = some (t', c')) : S.AnyRun c₀ (t ++ t') c' := by
  induction as generalizing t c t' with
  | nil =>
      obtain ⟨rfl, rfl⟩ := Prod.mk.inj (Option.some.inj hf)
      simpa using h
  | cons a as ih =>
      simp only [follow, Option.bind_eq_bind, Option.bind_eq_some_iff,
        Prod.exists] at hf
      obtain ⟨lbl, c₁, hnext, t₁, c₂, hrest, heq⟩ := hf
      obtain ⟨rfl, rfl⟩ := Prod.mk.inj (Option.some.inj heq)
      have hstep : S.AnyRun c₀ (t ++ [lbl]) c₁ := .snoc h hnext trivial
      simpa using ih hstep hrest

theorem run_of_follow {as : List (Choice ι J)}
    (hf : S.follow c₀ as = some (t, c)) : S.AnyRun c₀ t c := by
  simpa using Run.follow_append (t := []) .nil hf

variable (S) in
/-- Follows a list of scheduler choices after the trace `t`; `none` when one of them is
not possible or its step is not allowed. -/
def followIf
    (allowed : List (Label Call Ans ι L J β) → Config Call Ans ι σ L J β →
      Label Call Ans ι L J β → Bool)
    (t : List (Label Call Ans ι L J β)) (c : Config Call Ans ι σ L J β) :
    List (Choice ι J) →
      Option (List (Label Call Ans ι L J β) × Config Call Ans ι σ L J β)
  | [] => some (t, c)
  | a :: as =>
      (S.next c a).bind fun out =>
        if allowed t c out.1 then followIf allowed (t ++ [out.1]) out.2 as else none

/-- Allowed choices make a run whose steps are allowed. -/
theorem run_of_followIf
    {allowed : List (Label Call Ans ι L J β) → Config Call Ans ι σ L J β →
      Label Call Ans ι L J β → Bool} {as : List (Choice ι J)}
    {t₀ : List (Label Call Ans ι L J β)} {c₁ : Config Call Ans ι σ L J β}
    (h : S.Run (fun t c lbl => allowed t c lbl) c₀ t₀ c₁)
    (hf : S.followIf allowed t₀ c₁ as = some (t, c)) :
    S.Run (fun t c lbl => allowed t c lbl) c₀ t c := by
  induction as generalizing t₀ c₁ with
  | nil =>
      obtain ⟨rfl, rfl⟩ := Prod.mk.inj (Option.some.inj hf)
      exact h
  | cons a as ih =>
      obtain ⟨⟨lbl, c₂⟩, hnext, hrest⟩ := Option.bind_eq_some_iff.mp hf
      obtain ⟨hallowed, hrest⟩ := Option.ite_none_right_eq_some.mp hrest
      exact ih (h.snoc hnext hallowed) hrest

/-- A step leaves all other threads as they are. -/
theorem Step.thread_of_ne {lbl : Label Call Ans ι L J β} (h : S.Step c lbl c') {i : ι}
    (hi : i ≠ lbl.thread) : c'.thread i = c.thread i := by
  cases h with
  | start => exact Function.update_of_ne hi _ _
  | call => exact Function.update_of_ne hi _ _
  | finish => exact Function.update_of_ne hi _ _

/-- A thread that is idle after a step was idle before, or has ended a job. -/
theorem Step.idle_inv {lbl : Label Call Ans ι L J β} (h : S.Step c lbl c') {i : ι} {l : L}
    (hi : c'.thread i = .idle l) :
    (i ≠ lbl.thread ∧ c.thread i = .idle l) ∨
      ∃ l₀ j b, lbl = ⟨i, l₀, j, .finish b⟩ ∧ c.thread i = .busy l₀ j (.ret (l, b)) := by
  by_cases hthread : i = lbl.thread
  · cases h with
    | start i' l' j =>
        obtain rfl : i = i' := hthread
        simp at hi
    | call i' l' j o k =>
        obtain rfl : i = i' := hthread
        simp at hi
    | finish i' l' j l₁ b hbusy =>
        obtain rfl : i = i' := hthread
        obtain rfl : l₁ = l := by simpa using hi
        exact .inr ⟨l', j, b, rfl, hbusy⟩
  · exact .inl ⟨hthread, h.thread_of_ne hthread ▸ hi⟩

/-- A thread that is busy after a step was so before, or has started the job, or has made
a call of it. -/
theorem Step.busy_inv {lbl : Label Call Ans ι L J β} (h : S.Step c lbl c') {i : ι} {l : L}
    {j : J} {p : Program Call Ans (L × β)} (hi : c'.thread i = .busy l j p) :
    (i ≠ lbl.thread ∧ c.thread i = .busy l j p) ∨
      (lbl = ⟨i, l, j, .start⟩ ∧ c.thread i = .idle l ∧ p = S.code j l) ∨
      ∃ o k, lbl = ⟨i, l, j, .call o (S.exec o c.shared).1⟩ ∧
        c.thread i = .busy l j (.call o k) ∧ p = k (S.exec o c.shared).1 := by
  by_cases hthread : i = lbl.thread
  · cases h with
    | start i' l' j' hidle =>
        obtain rfl : i = i' := hthread
        simp only [Function.update_self, Thread.busy.injEq] at hi
        obtain ⟨rfl, rfl, rfl⟩ := hi
        exact .inr (.inl ⟨rfl, hidle, rfl⟩)
    | call i' l' j' o k hbusy =>
        obtain rfl : i = i' := hthread
        simp only [Function.update_self, Thread.busy.injEq] at hi
        obtain ⟨rfl, rfl, rfl⟩ := hi
        exact .inr (.inr ⟨o, k, rfl, hbusy, rfl⟩)
    | finish i' l' j' l₁ b hbusy =>
        obtain rfl : i = i' := hthread
        simp at hi
  · exact .inl ⟨hthread, h.thread_of_ne hthread ▸ hi⟩

theorem Step.call_inv {i : ι} {l : L} {j : J} {o : Call} {r : Ans o}
    (h : S.Step c ⟨i, l, j, .call o r⟩ c') :
    r = (S.exec o c.shared).1 ∧ c'.shared = (S.exec o c.shared).2 := by
  cases h
  exact ⟨rfl, rfl⟩

/-- Only calls change the shared state. -/
theorem Step.shared_of_not_call {lbl : Label Call Ans ι L J β} (h : S.Step c lbl c')
    (hkind : ∀ o r, lbl.kind ≠ .call o r) : c'.shared = c.shared := by
  cases h with
  | start => rfl
  | call i l j o k hi => exact absurd rfl (hkind o _)
  | finish => rfl

/-- What every call keeps, a run keeps. -/
theorem Run.invariant {inv : σ → Prop} (hexec : ∀ o s, inv s → inv (S.exec o s).2)
    (h : S.Run ok c₀ t c) (h₀ : inv c₀.shared) : inv c.shared := by
  induction h with
  | nil => exact h₀
  | snoc _ hnext _ ih =>
      cases step_of_next S hnext with
      | start => exact ih
      | call i l j o k hi => exact hexec o _ ih
      | finish => exact ih

section Contract

variable {inv : σ → Prop} {pre : J → L → Call → Prop} {post : (c : Call) → Ans c → Prop}
  {fin : J → L → L × β → Prop}

/-- The shared state satisfies `inv`, and every busy thread still keeps the
contract of its job. -/
structure Keeps (inv : σ → Prop) (pre : J → L → Call → Prop)
    (post : (c : Call) → Ans c → Prop) (fin : J → L → L × β → Prop)
    (c : Config Call Ans ι σ L J β) : Prop where
  shared : inv c.shared
  busy : ∀ i l j p, c.thread i = .busy l j p → p.Respects (pre j l) post (fin j l)

/-- The hypotheses of the invariant rule: every job keeps the contract, and
every call the contract allows keeps the invariant and is answered as
promised. -/
structure Contract (S : System Call Ans σ L J β) (inv : σ → Prop)
    (pre : J → L → Call → Prop) (post : (c : Call) → Ans c → Prop)
    (fin : J → L → L × β → Prop) : Prop where
  code : ∀ j l, (S.code j l).Respects (pre j l) post (fin j l)
  exec : ∀ j l o s, pre j l o → inv s → inv (S.exec o s).2 ∧ post o (S.exec o s).1

omit [DecidableEq ι] in
theorem keeps_idleAt {s : σ} {memory : ι → L} (hs : inv s) :
    Keeps inv pre post fin (idleAt s memory : Config Call Ans ι σ L J β) where
  shared := hs
  busy i l j p h := by cases h

theorem Keeps.step (hc : Contract S inv pre post fin) (h : Keeps inv pre post fin c)
    {lbl : Label Call Ans ι L J β} (hstep : S.Step c lbl c') :
    Keeps inv pre post fin c' := by
  constructor
  · cases hstep with
    | start => exact h.shared
    | call i l j o k hi => exact (hc.exec j l o c.shared (h.busy i l j _ hi).1 h.shared).1
    | finish => exact h.shared
  · intro i l j p hi
    rcases hstep.busy_inv hi with ⟨-, hbusy⟩ | ⟨-, -, rfl⟩ | ⟨o, k, -, hbusy, rfl⟩
    · exact h.busy i l j p hbusy
    · exact hc.code j l
    · obtain ⟨hpre, hk⟩ := h.busy i l j _ hbusy
      exact hk _ (hc.exec j l o c.shared hpre h.shared).2

/-- The invariant rule: the contract is kept along every run. -/
theorem Run.keeps (hc : Contract S inv pre post fin) (h₀ : Keeps inv pre post fin c₀)
    (h : S.Run ok c₀ t c) : Keeps inv pre post fin c := by
  induction h with
  | nil => exact h₀
  | snoc _ hnext _ ih => exact ih.step hc (step_of_next S hnext)

/-- The invariant rule where a call is answered as promised only in the states in which a
run makes it. -/
theorem Run.keeps_of_ok (hcode : ∀ j l, (S.code j l).Respects (pre j l) post (fin j l))
    (hexec : ∀ t c i l j o, ok t c ⟨i, l, j, .call o (S.exec o c.shared).1⟩ → pre j l o →
      inv c.shared → inv (S.exec o c.shared).2 ∧ post o (S.exec o c.shared).1)
    (h₀ : Keeps inv pre post fin c₀) (h : S.Run ok c₀ t c) :
    Keeps inv pre post fin c := by
  induction h with
  | nil => exact h₀
  | @snoc t c a lbl c' _ hnext hok ih =>
      have hstep := step_of_next S hnext
      constructor
      · cases hstep with
        | start => exact ih.shared
        | call i l j o k hi =>
            exact (hexec _ _ _ _ _ _ hok (ih.busy i l j _ hi).1 ih.shared).1
        | finish => exact ih.shared
      · intro i l j p hi
        rcases hstep.busy_inv hi with ⟨-, hbusy⟩ | ⟨-, -, rfl⟩ | ⟨o, k, rfl, hbusy, rfl⟩
        · exact ih.busy i l j p hbusy
        · exact hcode j l
        · obtain ⟨hpre, hk⟩ := ih.busy i l j _ hbusy
          exact hk _ (hexec _ _ _ _ _ _ hok hpre ih.shared).2

/-- A call made in a state that keeps the contract is one the contract allows. -/
theorem Keeps.pre_of_step (h : Keeps inv pre post fin c) {i : ι} {l : L} {j : J}
    {o : Call} {r : Ans o} (hstep : S.Step c ⟨i, l, j, .call o r⟩ c') : pre j l o := by
  cases hstep with
  | call _ _ _ _ k hi => exact (h.busy i l j _ hi).1

end Contract

end System
