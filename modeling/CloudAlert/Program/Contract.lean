import CloudAlert.Program.Basic

/-!
# Call contracts

`p.Respects pre post fin` is a contract between a program and whatever answers
its calls: as long as every answer `r` to a call `c` satisfies `post c r`, the
program makes only calls that satisfy `pre` and returns only results that
satisfy `fin`. The contract does not mention the shared state, so it holds
whether the program runs alone or between the calls of other programs.

`Respects.run` is the rule for a program that runs alone, `Respects.run_rel` the
one for a program that runs under two interpretations. The rule for programs that
run interleaved is in `Interleaving.lean`.
-/

universe u v w

namespace Program

variable {Call : Type u} {Ans : Call → Type v} {α β : Type w} {σ τ : Type*}

/-- While its calls are answered within `post`, the program makes only calls in
`pre`, and it returns only results in `fin`. -/
def Respects (pre : Call → Prop) (post : (c : Call) → Ans c → Prop)
    (fin : α → Prop) : Program Call Ans α → Prop
  | ret a => fin a
  | call c k => pre c ∧ ∀ r, post c r → (k r).Respects pre post fin

section

variable {pre pre' : Call → Prop} {post post' : (c : Call) → Ans c → Prop}
  {fin : α → Prop}

@[simp] theorem respects_call (c : Call) (k : Ans c → Program Call Ans α) :
    (call c k).Respects pre post fin ↔
      pre c ∧ ∀ r, post c r → (k r).Respects pre post fin := Iff.rfl

/-- The contract of a composition: the first part hands over a result in `mid`,
from which the second part keeps the contract. -/
theorem Respects.bind {mid : α → Prop} {fin : β → Prop}
    {p : Program Call Ans α} {f : α → Program Call Ans β}
    (hp : p.Respects pre post mid)
    (hf : ∀ a, mid a → (f a).Respects pre post fin) :
    (p >>= f).Respects pre post fin := by
  induction p with
  | ret a => exact hf a hp
  | call c k ih =>
      rw [call_bind, respects_call]
      exact ⟨hp.1, fun r hr => ih r (hp.2 r hr)⟩

theorem Respects.mono {fin' : α → Prop} {p : Program Call Ans α}
    (h : p.Respects pre post fin) (hpre : ∀ c, pre c → pre' c)
    (hpost : ∀ c r, pre c → post' c r → post c r) (hfin : ∀ a, fin a → fin' a) :
    p.Respects pre' post' fin' := by
  induction p with
  | ret a => exact hfin a h
  | call c k ih =>
      exact ⟨hpre c h.1, fun r hr => ih r (h.2 r (hpost c r h.1 hr))⟩

/-- A program that runs alone keeps every invariant that each of its allowed
calls keeps, and returns a result in `fin`. -/
theorem Respects.run {exec : (c : Call) → σ → Ans c × σ} {p : Program Call Ans α}
    (hp : p.Respects pre post fin) (inv : σ → Prop)
    (hexec : ∀ c s, pre c → inv s →
      inv (exec c s).2 ∧ post c (exec c s).1)
    {s : σ} (hs : inv s) :
    inv (Program.run exec p s).2 ∧ fin (Program.run exec p s).1 := by
  induction p generalizing s with
  | ret a => exact ⟨hs, hp⟩
  | call c k ih =>
      obtain ⟨hs', hr⟩ := hexec c s hp.1 hs
      exact ih (exec c s).1 (hp.2 _ hr) hs'

/-- Two interpretations whose states stay related, and that answer every allowed
call alike, give the same result and leave related states. -/
theorem Respects.run_rel {exec : (c : Call) → σ → Ans c × σ}
    {exec' : (c : Call) → τ → Ans c × τ} {p : Program Call Ans α}
    (hp : p.Respects pre post fin) (R : σ → τ → Prop)
    (hexec : ∀ c s t, pre c → R s t → (exec' c t).1 = (exec c s).1 ∧
      post c (exec c s).1 ∧ R (exec c s).2 (exec' c t).2)
    {s : σ} {t : τ} (h : R s t) :
    (Program.run exec' p t).1 = (Program.run exec p s).1 ∧
      R (Program.run exec p s).2 (Program.run exec' p t).2 := by
  induction p generalizing s t with
  | ret a => exact ⟨rfl, h⟩
  | call c k ih =>
      obtain ⟨hanswer, hpost, h'⟩ := hexec c s t hp.1 h
      rw [run_call, run_call, hanswer]
      exact ih (exec c s).1 (hp.2 _ hpost) h'

end

/-- The contract of a program that is watched: while its calls are answered, `advance`
makes the next record from the record `g` so far. The program makes only calls in `pre`,
and it returns only results that fit the record. -/
def Tracks {γ : Type*} (advance : γ → (c : Call) → Ans c → γ) (pre : Call → Prop)
    (fin : γ → α → Prop) : Program Call Ans α → γ → Prop
  | ret a, g => fin g a
  | call c k, g => pre c ∧ ∀ r, (k r).Tracks advance pre fin (advance g c r)

/-- The programs make the same calls and return results related by `R`. -/
inductive Alike (R : α → β → Prop) : Program Call Ans α → Program Call Ans β → Prop where
  | ret {a : α} {b : β} (h : R a b) : Alike R (.ret a) (.ret b)
  | call (c : Call) {k : Ans c → Program Call Ans α} {k' : Ans c → Program Call Ans β}
      (h : ∀ r, Alike R (k r) (k' r)) : Alike R (.call c k) (.call c k')

section

variable {R : α → β → Prop}

theorem Alike.bind {γ : Type w} (p : Program Call Ans γ) {f : γ → Program Call Ans α}
    {f' : γ → Program Call Ans β} (h : ∀ a, Alike R (f a) (f' a)) :
    Alike R (p >>= f) (p >>= f') := by
  induction p with
  | ret a => exact h a
  | call c k ih => exact .call c ih

theorem alike_ite {b : Prop} [Decidable b] {p q : Program Call Ans α}
    {p' q' : Program Call Ans β} (hp : b → Alike R p p') (hq : ¬ b → Alike R q q') :
    Alike R (if b then p else q) (if b then p' else q') := by
  by_cases hb : b
  · rw [if_pos hb, if_pos hb]
    exact hp hb
  · rw [if_neg hb, if_neg hb]
    exact hq hb

theorem Alike.run {p : Program Call Ans α} {p' : Program Call Ans β} (h : Alike R p p')
    (exec : (c : Call) → σ → Ans c × σ) (s : σ) :
    R (Program.run exec p s).1 (Program.run exec p' s).1 ∧
      (Program.run exec p s).2 = (Program.run exec p' s).2 := by
  induction h generalizing s with
  | ret h => exact ⟨h, rfl⟩
  | call c _ ih => exact ih (exec c s).1 (exec c s).2

end

end Program
