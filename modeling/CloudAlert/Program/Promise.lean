import CloudAlert.Program.Interleaving

/-!
# What is still to come

`p.Leads post goal` says that the program makes a call in `goal` before it ends,
as long as its calls are answered within `post`. `p.Everywhere post node` says that
`node` holds of every call the program can get to and of the program that follows
it. Both are kept by the steps of a thread.
-/

universe u v w

namespace Program

variable {Call : Type u} {Ans : Call → Type v} {α β : Type w}

/-- While its calls are answered within `post`, the program comes to a call in
`goal`. -/
def Leads (post : (c : Call) → Ans c → Prop) (goal : Call → Prop) :
    Program Call Ans α → Prop
  | ret _ => False
  | call c k => goal c ∨ ∀ r, post c r → (k r).Leads post goal

/-- While its calls are answered within `post`, each call of the program is in
`node`, with what follows it. -/
def Everywhere (post : (c : Call) → Ans c → Prop)
    (node : (c : Call) → (Ans c → Program Call Ans α) → Prop) : Program Call Ans α → Prop
  | ret _ => True
  | call c k => node c k ∧ ∀ r, post c r → (k r).Everywhere post node

section

variable {pre : Call → Prop} {post : (c : Call) → Ans c → Prop} {goal : Call → Prop}

/-- The code in front comes to the goal. -/
theorem Leads.bind {p : Program Call Ans α} (f : α → Program Call Ans β)
    (hp : p.Leads post goal) : (p >>= f).Leads post goal := by
  induction p with
  | ret a => exact hp.elim
  | call c k ih => exact hp.imp id fun hk r hr => ih r (hk r hr)

/-- The code behind comes to the goal from every result of the code in front. -/
theorem Respects.leads_bind {mid : α → Prop} {p : Program Call Ans α}
    {f : α → Program Call Ans β} (hp : p.Respects pre post mid)
    (hf : ∀ a, mid a → (f a).Leads post goal) : (p >>= f).Leads post goal := by
  induction p with
  | ret a => exact hf a hp
  | call c k ih => exact .inr fun r hr => ih r (hp.2 r hr)

theorem Respects.everywhere {fin : α → Prop} {p : Program Call Ans α}
    {node : (c : Call) → (Ans c → Program Call Ans α) → Prop}
    (hp : p.Respects pre post fin) (hnode : ∀ c k, pre c → node c k) :
    p.Everywhere post node := by
  induction p with
  | ret a => trivial
  | call c k ih => exact ⟨hnode c k hp.1, fun r hr => ih r (hp.2 r hr)⟩

end

end Program

namespace System

variable {Call : Type u} {Ans : Call → Type v} {ι σ : Type*} {L J β : Type w}
  [DecidableEq ι] {S : System Call Ans σ L J β} {post : (c : Call) → Ans c → Prop}
  {node : (c : Call) → (Ans c → Program Call Ans (L × β)) → Prop}

/-- A step leaves a thread with code in which `node` holds everywhere, if it holds
everywhere in the code of the jobs and in what the threads had still to run. -/
theorem Step.everywhere (hcode : ∀ j l, (S.code j l).Everywhere post node)
    (hpost : ∀ o s, post o (S.exec o s).1) {c c' : Config Call Ans ι σ L J β}
    {lbl : Label Call Ans ι L J β} (hstep : S.Step c lbl c')
    (h : ∀ i l j p, c.thread i = .busy l j p → p.Everywhere post node) {i : ι} {l : L}
    {j : J} {p : Program Call Ans (L × β)} (hi : c'.thread i = .busy l j p) :
    p.Everywhere post node := by
  rcases hstep.busy_inv hi with ⟨-, hbusy⟩ | ⟨-, -, rfl⟩ | ⟨o, k, -, hbusy, rfl⟩
  · exact h i l j p hbusy
  · exact hcode j l
  · exact (h i l j _ hbusy).2 _ (hpost o _)

/-- What holds everywhere in the code holds everywhere in what the threads have
still to run. -/
theorem Run.everywhere (hcode : ∀ j l, (S.code j l).Everywhere post node)
    (hpost : ∀ o s, post o (S.exec o s).1)
    {ok : List (Label Call Ans ι L J β) → Config Call Ans ι σ L J β →
      Label Call Ans ι L J β → Prop}
    {s : σ} {memory : ι → L} {t : List (Label Call Ans ι L J β)}
    {c : Config Call Ans ι σ L J β} (h : S.Run ok (idleAt s memory) t c) {i : ι} {l : L}
    {j : J} {p : Program Call Ans (L × β)} (hi : c.thread i = .busy l j p) :
    p.Everywhere post node := by
  induction h generalizing i l j p with
  | nil => cases hi
  | snoc _ hnext _ ih =>
      exact (step_of_next S hnext).everywhere hcode hpost (fun i l j p => ih) hi

end System
