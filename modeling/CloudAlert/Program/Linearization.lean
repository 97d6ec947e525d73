import CloudAlert.Program.Contract

/-!
# Settled programs

A program is `Settled` when nothing that is still to come matters: it returns
`out` whatever its calls are answered, and all of its calls are silent. A call
after which the rest is settled is the point at which the whole program can be
thought to happen.
-/

universe u v w

namespace Program

variable {Call : Type u} {Ans : Call → Type v} {α β : Type w} {σ : Type*}

/-- The program makes only calls in `silent` and returns `out`, whatever it is
answered. -/
def Settled (silent : Call → Prop) (out : α) (p : Program Call Ans α) : Prop :=
  p.Respects silent (fun _ _ => True) (· = out)

variable {silent : Call → Prop} {out : α}

theorem settled_ret : (ret out : Program Call Ans α).Settled silent out := rfl

theorem settled_call {c : Call} {k : Ans c → Program Call Ans α} (hc : silent c)
    (hk : ∀ r, (k r).Settled silent out) : (call c k).Settled silent out :=
  ⟨hc, fun r _ => hk r⟩

theorem Settled.bind {p : Program Call Ans β} {f : β → Program Call Ans α}
    (hp : p.Respects silent (fun _ _ => True) fun _ => True)
    (hf : ∀ b, (f b).Settled silent out) : (p >>= f).Settled silent out :=
  Respects.bind hp fun b _ => hf b

/-- Running a settled program gives its result, and what silent calls keep is
kept. -/
theorem Settled.run {exec : (c : Call) → σ → Ans c × σ} {γ : Type*} {view : σ → γ}
    {p : Program Call Ans α} (hp : p.Settled silent out)
    (hview : ∀ c s, silent c → view (exec c s).2 = view s) (s : σ) :
    (Program.run exec p s).1 = out ∧ view (Program.run exec p s).2 = view s := by
  obtain ⟨hkept, hresult⟩ := Respects.run hp (fun s' => view s' = view s)
    (fun c s' hc h => ⟨(hview c s' hc).trans h, trivial⟩) rfl
  exact ⟨hresult, hkept⟩

end Program
