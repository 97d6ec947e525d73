import CloudAlert.Program.Interleaving
import CloudAlert.Program.Machine

/-!
# Calls that hold a lock

In a `System` a call is one step. Here a call is the body of a method: the thread takes
the lock of the method, makes one operation after the other on what the lock protects, and
gives the lock back, and the steps of all other threads may come in between. `fine` is the
machine of such threads.

`Implements` says what a method has to do when nobody else touches what its lock protects:
it comes to its end, and its one effect is that of the call. The effect is taken at the
end, or where the method makes an operation that needs no lock (it reads the clock, say).
`exists_run` is the refinement: a fine-grained run has a run of the `System` behind it, in
which every call is one step, with the same starts and ends of jobs. `canReach_idle` says
that no thread is ever stuck: from every state of such a run, each busy thread can be
brought to its end.
-/

universe u v w

/-! ## Methods -/

/-- What the threads share: a part for each lock with the operations on it, and the rest,
whose operations need no lock. -/
structure Memory (Lk : Type*) where
  Part : Lk → Type
  Op : Lk → Type
  Res : {ℓ : Lk} → Op ℓ → Type
  exec : {ℓ : Lk} → (o : Op ℓ) → Part ℓ → Res o × Part ℓ
  Rest : Type
  Free : Type
  FreeRes : Free → Type
  free : (o : Free) → Rest → FreeRes o × Rest

variable {Lk : Type*}

/-- What a method does next. -/
inductive Memory.Next (M : Memory Lk) (ℓ : Lk) (R Loc : Type) where
  | ret (r : R)
  | op (o : M.Op ℓ) (k : M.Res o → Loc)
  | free (o : M.Free) (k : M.FreeRes o → Loc)

/-- The body of a method that runs under the lock `ℓ`. -/
structure Memory.Method (M : Memory Lk) (ℓ : Lk) (R : Type) where
  Loc : Type
  start : Loc
  next : Loc → M.Next ℓ R Loc

namespace Memory.Method

variable {M : Memory Lk} {ℓ : Lk} {R : Type}

/-- Code that makes operations of its own part only. -/
def ofProgram (p : Program (M.Op ℓ) M.Res R) : M.Method ℓ R where
  Loc := Program (M.Op ℓ) M.Res R
  start := p
  next
    | .ret r => .ret r
    | .call o k => .op o k

/-- Code whose first operation needs no lock. -/
def readFirst (o : M.Free) (p : M.FreeRes o → Program (M.Op ℓ) M.Res R) :
    M.Method ℓ R where
  Loc := Option (Program (M.Op ℓ) M.Res R)
  start := none
  next
    | none => .free o fun r => some (p r)
    | some (.ret r) => .ret r
    | some (.call o k) => .op o fun r => some (k r)

/-- A loop with one operation in each round. -/
def loop {X : Type} (x₀ : X) (o : X → M.Op ℓ) (round : (x : X) → M.Res (o x) → X ⊕ R) :
    M.Method ℓ R where
  Loc := X ⊕ R
  start := .inl x₀
  next
    | .inl x => .op (o x) (round x)
    | .inr r => .ret r

end Memory.Method

/-- How a call is made: as a method under a lock, or as one operation that needs none. -/
inductive Memory.Body (M : Memory Lk) (R : Type) where
  | locked (ℓ : Lk) (m : M.Method ℓ R)
  | free (o : M.Free) (k : M.FreeRes o → R)

/-! ## What a method has to do -/

/-- How the parts show in the states of the system whose calls are single steps. -/
structure Abstraction (M : Memory Lk) (σ : Type*) where
  View : Lk → Type
  view : (ℓ : Lk) → σ → View ℓ
  rest : σ → M.Rest
  Rep : (ℓ : Lk) → M.Part ℓ → View ℓ → Prop

section

variable {M : Memory Lk} {σ : Type*} {Call : Type u} {Ans : Call → Type}
    (A : Abstraction M σ)
  (exec : (c : Call) → σ → Ans c × σ)

/-- In `w`, the call answers `r`, leaves what `p` and `rest` show as, and changes nothing
that a lock other than `ℓ` protects. -/
structure Abstraction.Effect (ℓ : Lk) (c : Call) (w : σ) (r : Ans c) (p : M.Part ℓ)
    (rest : M.Rest) : Prop where
  answer : (exec c w).1 = r
  rep : A.Rep ℓ p (A.view ℓ (exec c w).2)
  rest : A.rest (exec c w).2 = rest
  keeps : ∀ ℓ', ℓ' ≠ ℓ → A.view ℓ' (exec c w).2 = A.view ℓ' w

/-- From `x` on, the method only makes operations on its own part, until it returns `r`
and the part shows as `v`. -/
inductive Abstraction.Completes {ℓ : Lk} {R : Type} (m : M.Method ℓ R)
    (v : A.View ℓ) (r : R) : m.Loc → M.Part ℓ → Prop where
  | ret {x : m.Loc} {p : M.Part ℓ} (hnext : m.next x = .ret r) (hrep : A.Rep ℓ p v) :
      Completes m v r x p
  | op {x : m.Loc} {p : M.Part ℓ} {o : M.Op ℓ} {f : M.Res o → m.Loc}
      (hnext : m.next x = .op o f)
      (h : Completes m v r (f (M.exec o p).1) (M.exec o p).2) :
      Completes m v r x p

/-- From `x` on, while its part shows as `v` in the system, the method comes to the point
where the call takes effect: at its end, or at an operation that needs no lock. -/
inductive Abstraction.Implements {ℓ : Lk} (c : Call) (m : M.Method ℓ (Ans c))
    (v : A.View ℓ) : m.Loc → M.Part ℓ → Prop where
  | ret {x : m.Loc} {p : M.Part ℓ} {r : Ans c} (hnext : m.next x = .ret r)
      (heffect : ∀ w, A.view ℓ w = v → A.Effect exec ℓ c w r p (A.rest w)) :
      Implements c m v x p
  | op {x : m.Loc} {p : M.Part ℓ} {o : M.Op ℓ} {f : M.Res o → m.Loc}
      (hnext : m.next x = .op o f)
      (h : Implements c m v (f (M.exec o p).1) (M.exec o p).2) :
      Implements c m v x p
  | free {x : m.Loc} {p : M.Part ℓ} {o : M.Free} {f : M.FreeRes o → m.Loc}
      (hnext : m.next x = .free o f)
      (heffect : ∀ w, A.view ℓ w = v →
        A.Completes m (A.view ℓ (exec c w).2) (exec c w).1 (f (M.free o (A.rest w)).1) p ∧
        A.rest (exec c w).2 = (M.free o (A.rest w)).2 ∧
        ∀ ℓ', ℓ' ≠ ℓ → A.view ℓ' (exec c w).2 = A.view ℓ' w) :
      Implements c m v x p

/-- The body does what the call does in one step. -/
def Abstraction.Correct (c : Call) : M.Body (Ans c) → Prop
  | .locked ℓ m => ∀ v p, A.Rep ℓ p v → A.Implements exec c m v m.start p
  | .free o f => ∀ w, (exec c w).1 = f (M.free o (A.rest w)).1 ∧
      A.rest (exec c w).2 = (M.free o (A.rest w)).2 ∧
      ∀ ℓ, A.view ℓ (exec c w).2 = A.view ℓ w

variable {A exec}

theorem Abstraction.correct_ofProgram {ℓ : Lk} {c : Call}
    {code : Program (M.Op ℓ) M.Res (Ans c)}
    (h : ∀ w p, A.Rep ℓ p (A.view ℓ w) → A.Effect exec ℓ c w
      (code.run (fun o => M.exec o) p).1 (code.run (fun o => M.exec o) p).2 (A.rest w)) :
    A.Correct exec c (.locked ℓ (.ofProgram code)) := by
  have himplements : ∀ (code₀ : Program (M.Op ℓ) M.Res (Ans c)) (v : A.View ℓ)
      (code : Program (M.Op ℓ) M.Res (Ans c)) p,
      (∀ w, A.view ℓ w = v → A.Effect exec ℓ c w (code.run (fun o => M.exec o) p).1
        (code.run (fun o => M.exec o) p).2 (A.rest w)) →
      A.Implements exec c (.ofProgram code₀) v code p := by
    intro code₀ v code
    induction code with
    | ret r => exact fun p heffect => .ret rfl heffect
    | call o k ih => exact fun p heffect => .op rfl (ih _ _ heffect)
  exact fun v p hp => himplements code v code p fun w hw => h w p (hw ▸ hp)

/-- The operation without a lock is the point where the call takes effect. -/
theorem Abstraction.correct_readFirst {ℓ : Lk} {c : Call} {o : M.Free}
    {code : M.FreeRes o → Program (M.Op ℓ) M.Res (Ans c)}
    (h : ∀ w p, A.Rep ℓ p (A.view ℓ w) → A.Effect exec ℓ c w
      ((code (M.free o (A.rest w)).1).run (fun o => M.exec o) p).1
      ((code (M.free o (A.rest w)).1).run (fun o => M.exec o) p).2
      (M.free o (A.rest w)).2) :
    A.Correct exec c (.locked ℓ (.readFirst o code)) := by
  have hcompletes :
      ∀ (r : Ans c) (v : A.View ℓ) (rest : Program (M.Op ℓ) M.Res (Ans c)) p,
      (rest.run (fun o => M.exec o) p).1 = r →
      A.Rep ℓ (rest.run (fun o => M.exec o) p).2 v →
        A.Completes (.readFirst o code) v r (some rest) p := by
    intro r v rest
    induction rest with
    | ret r' =>
        rintro p rfl hrep
        exact .ret rfl hrep
    | call o k ih => exact fun p hr hrep => .op rfl (ih _ _ hr hrep)
  refine fun v p hp => .free rfl fun w hw => ?_
  have heffect := h w p (hw ▸ hp)
  exact ⟨hcompletes _ _ _ p heffect.answer.symm heffect.rep, heffect.rest, heffect.keeps⟩

end

/-! ## The machine -/

/-- What a thread does: it has no job, it is about to make the next step `p` of its job,
or it is inside a call and at `x` in the body. -/
inductive FineThread (M : Memory Lk) (Call : Type u) (Ans : Call → Type)
    (L J β : Type w) where
  | idle (l : L)
  | ready (l : L) (j : J) (p : Program Call Ans (L × β))
  | inside (l : L) (j : J) (c : Call) (k : Ans c → Program Call Ans (L × β)) (ℓ : Lk)
      (m : M.Method ℓ (Ans c)) (x : m.Loc)

/-- The start or the end of a job. -/
inductive Mark (ι : Type*) (L J β : Type*) where
  | start (i : ι) (l : L) (j : J)
  | finish (i : ι) (l : L) (j : J) (b : β)

/-- A state of the fine-grained system, with the marks so far. -/
structure Fine (M : Memory Lk) (Call : Type u) (Ans : Call → Type) (ι : Type*)
    (L J β : Type w) where
  part : (ℓ : Lk) → M.Part ℓ
  rest : M.Rest
  held : Lk → Option ι
  thread : ι → FineThread M Call Ans L J β
  marks : List (Mark ι L J β)

section

variable [DecidableEq Lk] {M : Memory Lk} {Call : Type u}
    {Ans : Call → Type} {ι σ : Type*}
  [DecidableEq ι] {L J β : Type w} (S : System Call Ans σ L J β)
  (body : (c : Call) → M.Body (Ans c))

/-- The next step of thread `i`; `none` while the lock it needs is taken. -/
def Fine.step (s : Fine M Call Ans ι L J β) (i : ι) : Option (Fine M Call Ans ι L J β) :=
  match s.thread i with
  | .idle _ => none
  | .ready l j (.ret (l', b)) => some { s with
      thread := Function.update s.thread i (.idle l'), marks :=
        s.marks ++ [.finish i l j b] }
  | .ready l j (.call c k) =>
      match body c with
      | .free o f => some { s with
          rest := (M.free o s.rest).2,
          thread := Function.update s.thread i (.ready l j (k (f (M.free o s.rest).1))) }
      | .locked ℓ m =>
          if s.held ℓ = none then some { s with
            held := Function.update s.held ℓ (some i),
            thread := Function.update s.thread i (.inside l j c k ℓ m m.start) }
          else none
  | .inside l j c k ℓ m x =>
      match m.next x with
      | .ret r => some { s with
          held := Function.update s.held ℓ none,
          thread := Function.update s.thread i (.ready l j (k r)) }
      | .op o f => some { s with
          part := Function.update s.part ℓ (M.exec o (s.part ℓ)).2,
          thread := Function.update s.thread i
            (.inside l j c k ℓ m (f (M.exec o (s.part ℓ)).1)) }
      | .free o f => some { s with
          rest := (M.free o s.rest).2,
          thread := Function.update s.thread i
            (.inside l j c k ℓ m (f (M.free o s.rest).1)) }

/-- The threads of `S` with the calls as `body` makes them. -/
def fine : Machine (Fine M Call Ans ι L J β) (Choice ι J) where
  next s
    | .start i j =>
        match s.thread i with
        | .idle l => some { s with
            thread := Function.update s.thread i (.ready l j (S.code j l)),
            marks := s.marks ++ [.start i l j] }
        | _ => none
    | .step i => s.step body i

/-- What a step can be. -/
inductive FineStep (s : Fine M Call Ans ι L J β) :
    Choice ι J → Fine M Call Ans ι L J β → Prop where
  | start (i : ι) (j : J) (l : L) (hi : s.thread i = .idle l) :
      FineStep s (.start i j) { s with
        thread := Function.update s.thread i (.ready l j (S.code j l)),
        marks := s.marks ++ [.start i l j] }
  | finish (i : ι) (l : L) (j : J) (l' : L) (b : β)
      (hi : s.thread i = .ready l j (.ret (l', b))) :
      FineStep s (.step i) { s with
        thread := Function.update s.thread i (.idle l'), marks :=
          s.marks ++ [.finish i l j b] }
  | atOnce (i : ι) (l : L) (j : J) (c : Call) (k : Ans c → Program Call Ans (L × β))
      (o : M.Free) (f : M.FreeRes o → Ans c) (hi : s.thread i = .ready l j (.call c k))
      (hbody : body c = .free o f) :
      FineStep s (.step i) { s with
        rest := (M.free o s.rest).2,
        thread := Function.update s.thread i (.ready l j (k (f (M.free o s.rest).1))) }
  | enter (i : ι) (l : L) (j : J) (c : Call)
      (k : Ans c → Program Call Ans (L × β)) (ℓ : Lk)
      (m : M.Method ℓ (Ans c)) (hi : s.thread i = .ready l j (.call c k))
      (hbody : body c = .locked ℓ m) (hfree : s.held ℓ = none) :
      FineStep s (.step i) { s with
        held := Function.update s.held ℓ (some i),
        thread := Function.update s.thread i (.inside l j c k ℓ m m.start) }
  | leave (i : ι) (l : L) (j : J) (c : Call)
      (k : Ans c → Program Call Ans (L × β)) (ℓ : Lk)
      (m : M.Method ℓ (Ans c)) (x : m.Loc) (r : Ans c)
      (hi : s.thread i = .inside l j c k ℓ m x) (hnext : m.next x = .ret r) :
      FineStep s (.step i) { s with
        held := Function.update s.held ℓ none,
        thread := Function.update s.thread i (.ready l j (k r)) }
  | op (i : ι) (l : L) (j : J) (c : Call) (k : Ans c → Program Call Ans (L × β)) (ℓ : Lk)
      (m : M.Method ℓ (Ans c)) (x : m.Loc) (o : M.Op ℓ) (f : M.Res o → m.Loc)
      (hi : s.thread i = .inside l j c k ℓ m x) (hnext : m.next x = .op o f) :
      FineStep s (.step i) { s with
        part := Function.update s.part ℓ (M.exec o (s.part ℓ)).2,
        thread := Function.update s.thread i
          (.inside l j c k ℓ m (f (M.exec o (s.part ℓ)).1)) }
  | free (i : ι) (l : L) (j : J) (c : Call)
      (k : Ans c → Program Call Ans (L × β)) (ℓ : Lk)
      (m : M.Method ℓ (Ans c)) (x : m.Loc) (o : M.Free) (f : M.FreeRes o → m.Loc)
      (hi : s.thread i = .inside l j c k ℓ m x) (hnext : m.next x = .free o f) :
      FineStep s (.step i) { s with
        rest := (M.free o s.rest).2,
        thread := Function.update s.thread i
          (.inside l j c k ℓ m (f (M.free o s.rest).1)) }

variable {S body}

theorem step_of_fine {s s' : Fine M Call Ans ι L J β} {a : Choice ι J}
    (h : (fine S body).next s a = some s') : FineStep S body s a s' := by
  cases a with
  | start i j =>
      simp only [fine] at h
      split at h
      · rename_i l hi
        obtain rfl := Option.some.inj h
        exact .start i j l hi
      · cases h
  | step i =>
      simp only [fine, Fine.step] at h
      split at h
      · cases h
      · rename_i l j l' b hi
        obtain rfl := Option.some.inj h
        exact .finish i l j l' b hi
      · rename_i l j c k hi
        split at h
        · rename_i o f hbody
          obtain rfl := Option.some.inj h
          exact .atOnce i l j c k o f hi hbody
        · rename_i ℓ m hbody
          obtain ⟨hfree, hs⟩ := Option.ite_none_right_eq_some.mp h
          obtain rfl := Option.some.inj hs
          exact .enter i l j c k ℓ m hi hbody hfree
      · rename_i l j c k ℓ m x hi
        split at h
        · rename_i r hnext
          obtain rfl := Option.some.inj h
          exact .leave i l j c k ℓ m x r hi hnext
        · rename_i o f hnext
          obtain rfl := Option.some.inj h
          exact .op i l j c k ℓ m x o f hi hnext
        · rename_i o f hnext
          obtain rfl := Option.some.inj h
          exact .free i l j c k ℓ m x o f hi hnext

theorem fine_of_step {s s' : Fine M Call Ans ι L J β} {a : Choice ι J}
    (h : FineStep S body s a s') : (fine S body).next s a = some s' := by
  cases h with
  | start i j l hi => simp only [fine, hi]
  | finish i l j l' b hi => simp only [fine, Fine.step, hi]
  | atOnce i l j c k o f hi hbody => simp only [fine, Fine.step, hi, hbody]
  | enter i l j c k ℓ m hi hbody hfree =>
      simp only [fine, Fine.step, hi, hbody, if_pos hfree]
  | leave i l j c k ℓ m x r hi hnext => simp only [fine, Fine.step, hi, hnext]
  | op i l j c k ℓ m x o f hi hnext => simp only [fine, Fine.step, hi, hnext]
  | free i l j c k ℓ m x o f hi hnext => simp only [fine, Fine.step, hi, hnext]

/-! ## The refinement -/

variable (A : Abstraction M σ) (exec : (c : Call) → σ → Ans c × σ)

/-- The lock a thread holds. -/
def FineThread.lock : FineThread M Call Ans L J β → Option Lk
  | .inside _ _ _ _ ℓ _ _ => some ℓ
  | _ => none

/-- What a thread does, as the system sees it: a call that is under way has not been made
yet, or has been made and answered. -/
def Abstraction.Shows (part : (ℓ : Lk) → M.Part ℓ) (w : σ) :
    FineThread M Call Ans L J β → Thread Call Ans L J β → Prop
  | .idle l, th => th = .idle l
  | .ready l j p, th => th = .busy l j p
  | .inside l j c k ℓ m x, th =>
      (th = .busy l j (.call c k) ∧ A.Implements exec c m (A.view ℓ w) x (part ℓ)) ∨
      ∃ r, th = .busy l j (k r) ∧ A.Completes m (A.view ℓ w) r x (part ℓ)

/-- The state of the system behind a fine-grained state. -/
structure Abstraction.Refines (s : Fine M Call Ans ι L J β)
    (d : Config Call Ans ι σ L J β) : Prop where
  rest : A.rest d.shared = s.rest
  unheld : ∀ ℓ, s.held ℓ = none → A.Rep ℓ (s.part ℓ) (A.view ℓ d.shared)
  holder : ∀ i ℓ, s.held ℓ = some i ↔ (s.thread i).lock = some ℓ
  thread : ∀ i, A.Shows exec s.part d.shared (s.thread i) (d.thread i)

variable {A exec}

omit [DecidableEq Lk] in
theorem Abstraction.Shows.congr {part part' : (ℓ : Lk) → M.Part ℓ} {w w' : σ}
    {th : FineThread M Call Ans L J β} {th' : Thread Call Ans L J β}
    (h : A.Shows exec part w th th')
    (hsame : ∀ ℓ, th.lock = some ℓ → part' ℓ = part ℓ ∧ A.view ℓ w' = A.view ℓ w) :
    A.Shows exec part' w' th th' := by
  cases th with
  | idle l => exact h
  | ready l j p => exact h
  | inside l j c k ℓ m x =>
      obtain ⟨hpart, hview⟩ := hsame ℓ rfl
      simp only [Abstraction.Shows, hpart, hview] at h ⊢
      exact h

omit [DecidableEq Lk] in
/-- One thread makes a step, and the others show as before. -/
theorem Abstraction.Shows.update {thread : ι → FineThread M Call Ans L J β}
    {thread' : ι → Thread Call Ans L J β} {part part' : (ℓ : Lk) → M.Part ℓ} {w w' : σ}
    (h : ∀ i, A.Shows exec part w (thread i) (thread' i)) {i : ι}
    {th : FineThread M Call Ans L J β} {th' : Thread Call Ans L J β}
    (hself : A.Shows exec part' w' th th')
    (hother : ∀ i' ℓ, i' ≠ i → (thread i').lock = some ℓ →
      part' ℓ = part ℓ ∧ A.view ℓ w' = A.view ℓ w) (i' : ι) :
    A.Shows exec part' w' (Function.update thread i th i')
      (Function.update thread' i th' i') := by
  by_cases hi : i' = i
  · subst hi
    simpa using hself
  · rw [Function.update_of_ne hi, Function.update_of_ne hi]
    exact (h i').congr fun ℓ => hother i' ℓ hi

omit [DecidableEq Lk] in
theorem Abstraction.Shows.update_self {thread : ι → FineThread M Call Ans L J β}
    {thread' : ι → Thread Call Ans L J β} {part part' : (ℓ : Lk) → M.Part ℓ} {w : σ}
    (h : ∀ i, A.Shows exec part w (thread i) (thread' i)) {i : ι}
    {th : FineThread M Call Ans L J β} (hself : A.Shows exec part' w th (thread' i))
    (hother : ∀ i' ℓ, i' ≠ i → (thread i').lock = some ℓ → part' ℓ = part ℓ) (i' : ι) :
    A.Shows exec part' w (Function.update thread i th i') (thread' i') := by
  have hshows :=
    Abstraction.Shows.update h hself (fun i' ℓ hi hℓ => ⟨hother i' ℓ hi hℓ, rfl⟩) i'
  rwa [Function.update_eq_self] at hshows

variable {s s' : Fine M Call Ans ι L J β} {d : Config Call Ans ι σ L J β} {a : Choice ι J}

omit [DecidableEq Lk] in
/-- What a thread holds after one thread has taken a step under the lock it holds. -/
theorem Abstraction.Refines.holder_update (h : A.Refines exec s d) {i : ι}
    {th : FineThread M Call Ans L J β} (hlock : th.lock = (s.thread i).lock)
    (i' : ι) (ℓ : Lk) :
    s.held ℓ = some i' ↔ (Function.update s.thread i th i').lock = some ℓ := by
  rw [h.holder]
  by_cases hi : i' = i
  · subst hi
    rw [Function.update_self, hlock]
  · rw [Function.update_of_ne hi]

omit [DecidableEq Lk] [DecidableEq ι] in
theorem Abstraction.Refines.lock_ne (h : A.Refines exec s d) {i i' : ι} {ℓ ℓ' : Lk}
    (hi : (s.thread i).lock = some ℓ) (hne : i' ≠ i)
    (hi' : (s.thread i').lock = some ℓ') : ℓ' ≠ ℓ := by
  rintro rfl
  have hheld := ((h.holder i ℓ').mpr hi).symm.trans ((h.holder i' ℓ').mpr hi')
  exact hne (Option.some.inj hheld).symm

/-- The mark of a step. -/
def Label.mark (lbl : Label Call Ans ι L J β) : Option (Mark ι L J β) :=
  match lbl.kind with
  | .start => some (.start lbl.thread lbl.memory lbl.job)
  | .call _ _ => none
  | .finish b => some (.finish lbl.thread lbl.memory lbl.job b)

/-- A step of the system behind a fine-grained step; there may be none. -/
def Matches (S : System Call Ans σ L J β) (A : Abstraction M σ)
    (s s' : Fine M Call Ans ι L J β) (d : Config Call Ans ι σ L J β) : Prop :=
  ∃ t d', S.AnyRun d t d' ∧ s'.marks = s.marks ++ t.filterMap Label.mark ∧
    A.Refines S.exec s' d'

theorem System.run_call {i : ι} {l : L} {j : J} {c : Call}
    {k : Ans c → Program Call Ans (L × β)} (hi : d.thread i = .busy l j (.call c k)) :
    S.AnyRun d [⟨i, l, j, .call c (S.exec c d.shared).1⟩]
      ⟨(S.exec c d.shared).2,
        Function.update d.thread i (.busy l j (k (S.exec c d.shared).1))⟩ := by
  refine System.Run.snoc (t := []) (a := .step i) .nil ?_ trivial
  simp only [System.next, hi]

section Steps

variable (h : A.Refines S.exec s d)
include h

omit [DecidableEq Lk] in
theorem Abstraction.Refines.start {i : ι} {j : J} {l : L} (hi : s.thread i = .idle l) :
    Matches S A s { s with
      thread := Function.update s.thread i (.ready l j (S.code j l)),
      marks := s.marks ++ [.start i l j] } d := by
  have hshows := h.thread i
  rw [hi] at hshows
  change d.thread i = .idle l at hshows
  refine ⟨[⟨i, l, j, .start⟩],
    ⟨d.shared, Function.update d.thread i (.busy l j (S.code j l))⟩, ?_, rfl, ?_⟩
  · refine System.Run.snoc (t := []) (a := .start i j) .nil ?_ trivial
    simp only [System.next, hshows]
  · exact ⟨h.rest, h.unheld, h.holder_update (by rw [hi]; rfl),
      Abstraction.Shows.update h.thread rfl fun _ _ _ _ => ⟨rfl, rfl⟩⟩

omit [DecidableEq Lk] in
theorem Abstraction.Refines.finish {i : ι} {l : L} {j : J} {l' : L} {b : β}
    (hi : s.thread i = .ready l j (.ret (l', b))) :
    Matches S A s { s with
      thread := Function.update s.thread i (.idle l'),
      marks := s.marks ++ [.finish i l j b] } d := by
  have hshows := h.thread i
  rw [hi] at hshows
  change d.thread i = .busy l j (.ret (l', b)) at hshows
  refine ⟨[⟨i, l, j, .finish b⟩],
    ⟨d.shared, Function.update d.thread i (.idle l')⟩, ?_, rfl, ?_⟩
  · refine System.Run.snoc (t := []) (a := .step i) .nil ?_ trivial
    simp only [System.next, hshows]
  · exact ⟨h.rest, h.unheld, h.holder_update (by rw [hi]; rfl),
      Abstraction.Shows.update h.thread rfl fun _ _ _ _ => ⟨rfl, rfl⟩⟩

omit [DecidableEq Lk] in
/-- An operation that needs no lock is a call of the system. -/
theorem Abstraction.Refines.atOnce {i : ι} {l : L} {j : J} {c : Call}
    {k : Ans c → Program Call Ans (L × β)} {o : M.Free} {f : M.FreeRes o → Ans c}
    (hi : s.thread i = .ready l j (.call c k))
    (hcorrect : A.Correct S.exec c (.free o f)) :
    Matches S A s { s with
      rest := (M.free o s.rest).2,
      thread := Function.update s.thread i
        (.ready l j (k (f (M.free o s.rest).1))) } d := by
  have hshows := h.thread i
  rw [hi] at hshows
  change d.thread i = .busy l j (.call c k) at hshows
  obtain ⟨hanswer, hrest, hviews⟩ := hcorrect d.shared
  rw [h.rest] at hanswer hrest
  refine ⟨_, _, System.run_call hshows, (List.append_nil _).symm, ?_⟩
  refine ⟨hrest, fun ℓ hℓ => ?_, h.holder_update (by rw [hi]; rfl), ?_⟩
  · rw [hviews ℓ]
    exact h.unheld ℓ hℓ
  · exact Abstraction.Shows.update h.thread (by rw [hanswer]; rfl)
      fun _ ℓ _ _ => ⟨rfl, hviews ℓ⟩

theorem Abstraction.Refines.enter {i : ι} {l : L} {j : J} {c : Call}
    {k : Ans c → Program Call Ans (L × β)} {ℓ : Lk} {m : M.Method ℓ (Ans c)}
    (hi : s.thread i = .ready l j (.call c k)) (hfree : s.held ℓ = none)
    (hcorrect : A.Correct S.exec c (.locked ℓ m)) :
    Matches S A s { s with
      held := Function.update s.held ℓ (some i),
      thread := Function.update s.thread i (.inside l j c k ℓ m m.start) } d := by
  have hshows := h.thread i
  rw [hi] at hshows
  change d.thread i = .busy l j (.call c k) at hshows
  refine ⟨[], d, .nil, (List.append_nil _).symm, h.rest, fun ℓ' hℓ' => ?_,
    fun i' ℓ' => ?_, ?_⟩
  · refine h.unheld ℓ' ?_
    by_cases heq : ℓ' = ℓ
    · rw [heq]
      exact hfree
    · exact (Function.update_of_ne heq _ _).symm.trans hℓ'
  · have hnone : s.held ℓ' = some i ↔ False := by
      rw [h.holder, hi]
      simp [FineThread.lock]
    have hnotHeld : ∀ i', (s.thread i').lock = some ℓ ↔ False := by
      intro i'
      rw [← h.holder, hfree]
      simp
    by_cases hi' : i' = i
    · subst hi'
      by_cases heq : ℓ' = ℓ
      · subst heq
        simp [FineThread.lock]
      · simp [FineThread.lock, Function.update_of_ne heq, hnone, Ne.symm heq]
    · by_cases heq : ℓ' = ℓ
      · subst heq
        simp [Function.update_of_ne hi', hnotHeld, Ne.symm hi']
      · simp [Function.update_of_ne hi', Function.update_of_ne heq, h.holder]
  · refine Abstraction.Shows.update_self h.thread ?_ fun _ _ _ _ => rfl
    exact .inl ⟨hshows, hcorrect _ _ (h.unheld ℓ hfree)⟩

/-- Giving a lock back is a call of the system, or is not seen. -/
theorem Abstraction.Refines.leave {i : ι} {l : L} {j : J} {c : Call}
    {k : Ans c → Program Call Ans (L × β)} {ℓ : Lk} {m : M.Method ℓ (Ans c)} {x : m.Loc}
    {r : Ans c} (hi : s.thread i = .inside l j c k ℓ m x) (hnext : m.next x = .ret r) :
    Matches S A s { s with
      held := Function.update s.held ℓ none,
      thread := Function.update s.thread i (.ready l j (k r)) } d := by
  have hshows := h.thread i
  rw [hi] at hshows
  have hlock : (s.thread i).lock = some ℓ := by rw [hi]; rfl
  have hheld : s.held ℓ = some i := (h.holder i ℓ).mpr hlock
  -- who holds what afterwards
  have hholder : ∀ i' ℓ', Function.update s.held ℓ none ℓ' = some i' ↔
      (Function.update s.thread i (.ready l j (k r)) i').lock = some ℓ' := by
    intro i' ℓ'
    by_cases hi' : i' = i
    · subst hi'
      have hmine : s.held ℓ' = some i' → ℓ' = ℓ := by
        rw [h.holder, hlock]
        simp [eq_comm]
      by_cases heq : ℓ' = ℓ
      · simp [heq, FineThread.lock]
      · simpa [Function.update_of_ne heq, FineThread.lock] using fun hs => heq (hmine hs)
    · by_cases heq : ℓ' = ℓ
      · subst heq
        simp [Function.update_of_ne hi', ← h.holder, hheld, Ne.symm hi']
      · simp [Function.update_of_ne hi', Function.update_of_ne heq, h.holder]
  have hother : ∀ i' ℓ', i' ≠ i → (s.thread i').lock = some ℓ' → ℓ' ≠ ℓ :=
    fun i' ℓ' hi' =>
    h.lock_ne hlock hi'
  rcases hshows with ⟨hbusy, himplements⟩ | ⟨r', hbusy, hcompletes⟩
  · cases himplements with
    | op hnext' => cases hnext.symm.trans hnext'
    | free hnext' => cases hnext.symm.trans hnext'
    | ret hnext' heffect =>
        cases hnext.symm.trans hnext'
        have heffect := heffect d.shared rfl
        refine ⟨_, _, System.run_call hbusy, (List.append_nil _).symm,
          heffect.rest.trans h.rest, fun ℓ' hℓ' => ?_, hholder, ?_⟩
        · by_cases heq : ℓ' = ℓ
          · subst heq
            exact heffect.rep
          · rw [heffect.keeps ℓ' heq]
            exact h.unheld ℓ' ((Function.update_of_ne heq _ _).symm.trans hℓ')
        · exact Abstraction.Shows.update h.thread (by rw [heffect.answer]; rfl)
            fun i' ℓ' hi' hℓ' => ⟨rfl, heffect.keeps ℓ' (hother i' ℓ' hi' hℓ')⟩
  · cases hcompletes with
    | op hnext' => cases hnext.symm.trans hnext'
    | ret hnext' hrep =>
        cases hnext.symm.trans hnext'
        refine ⟨[], d, .nil, (List.append_nil _).symm, h.rest,
          fun ℓ' hℓ' => ?_, hholder, ?_⟩
        · by_cases heq : ℓ' = ℓ
          · subst heq
            exact hrep
          · exact h.unheld ℓ' ((Function.update_of_ne heq _ _).symm.trans hℓ')
        · exact Abstraction.Shows.update_self h.thread hbusy fun _ _ _ _ => rfl

theorem Abstraction.Refines.op {i : ι} {l : L} {j : J} {c : Call}
    {k : Ans c → Program Call Ans (L × β)} {ℓ : Lk} {m : M.Method ℓ (Ans c)} {x : m.Loc}
    {o : M.Op ℓ} {f : M.Res o → m.Loc} (hi : s.thread i = .inside l j c k ℓ m x)
    (hnext : m.next x = .op o f) :
    A.Refines S.exec { s with
      part := Function.update s.part ℓ (M.exec o (s.part ℓ)).2,
      thread := Function.update s.thread i
        (.inside l j c k ℓ m (f (M.exec o (s.part ℓ)).1)) } d := by
  have hshows := h.thread i
  rw [hi] at hshows
  have hlock : (s.thread i).lock = some ℓ := by rw [hi]; rfl
  have hheld : s.held ℓ = some i := (h.holder i ℓ).mpr hlock
  refine ⟨h.rest, fun ℓ' hℓ' => ?_, h.holder_update (by rw [hi]; rfl), ?_⟩
  · have heq : ℓ' ≠ ℓ := by
      rintro rfl
      cases hheld.symm.trans hℓ'
    change A.Rep ℓ' (Function.update s.part ℓ _ ℓ') _
    rw [Function.update_of_ne heq]
    exact h.unheld ℓ' hℓ'
  · refine Abstraction.Shows.update_self h.thread ?_
      fun i' ℓ' hi' hℓ' => Function.update_of_ne (h.lock_ne hlock hi' hℓ') _ _
    simp only [Abstraction.Shows, Function.update_self]
    rcases hshows with ⟨hbusy, himplements⟩ | ⟨r, hbusy, hcompletes⟩
    · refine .inl ⟨hbusy, ?_⟩
      cases himplements with
      | ret hnext' => cases hnext.symm.trans hnext'
      | free hnext' => cases hnext.symm.trans hnext'
      | op hnext' hrest =>
          cases hnext.symm.trans hnext'
          exact hrest
    · refine .inr ⟨r, hbusy, ?_⟩
      cases hcompletes with
      | ret hnext' => cases hnext.symm.trans hnext'
      | op hnext' hrest =>
          cases hnext.symm.trans hnext'
          exact hrest

omit [DecidableEq Lk] in
theorem Abstraction.Refines.free {i : ι} {l : L} {j : J} {c : Call}
    {k : Ans c → Program Call Ans (L × β)} {ℓ : Lk} {m : M.Method ℓ (Ans c)} {x : m.Loc}
    {o : M.Free} {f : M.FreeRes o → m.Loc} (hi : s.thread i = .inside l j c k ℓ m x)
    (hnext : m.next x = .free o f) :
    Matches S A s { s with
      rest := (M.free o s.rest).2,
      thread := Function.update s.thread i
        (.inside l j c k ℓ m (f (M.free o s.rest).1)) } d := by
  have hshows := h.thread i
  rw [hi] at hshows
  have hlock : (s.thread i).lock = some ℓ := by rw [hi]; rfl
  have hheld : s.held ℓ = some i := (h.holder i ℓ).mpr hlock
  rcases hshows with ⟨hbusy, himplements⟩ | ⟨r, -, hcompletes⟩
  · cases himplements with
    | ret hnext' => cases hnext.symm.trans hnext'
    | op hnext' => cases hnext.symm.trans hnext'
    | free hnext' heffect =>
        cases hnext.symm.trans hnext'
        obtain ⟨hcompletes, hrest, hkeeps⟩ := heffect d.shared rfl
        rw [h.rest] at hcompletes hrest
        refine ⟨_, _, System.run_call hbusy, (List.append_nil _).symm, hrest,
          fun ℓ' hℓ' => ?_, h.holder_update (by rw [hi]; rfl), ?_⟩
        · have heq : ℓ' ≠ ℓ := by
            rintro rfl
            cases hheld.symm.trans hℓ'
          rw [hkeeps ℓ' heq]
          exact h.unheld ℓ' hℓ'
        · exact Abstraction.Shows.update h.thread (.inr ⟨_, rfl, hcompletes⟩)
            fun i' ℓ' hi' hℓ' => ⟨rfl, hkeeps ℓ' (h.lock_ne hlock hi' hℓ')⟩
  · cases hcompletes with
    | ret hnext' => cases hnext.symm.trans hnext'
    | op hnext' => cases hnext.symm.trans hnext'

theorem Abstraction.Refines.step (hcorrect : ∀ c, A.Correct S.exec c (body c))
    (hstep : FineStep S body s a s') : Matches S A s s' d := by
  cases hstep with
  | start i j l hi => exact h.start hi
  | finish i l j l' b hi => exact h.finish hi
  | atOnce i l j c k o f hi hbody => exact h.atOnce hi (hbody ▸ hcorrect c)
  | enter i l j c k ℓ m hi hbody hfree => exact h.enter hi hfree (hbody ▸ hcorrect c)
  | leave i l j c k ℓ m x r hi hnext => exact h.leave hi hnext
  | op i l j c k ℓ m x o f hi hnext =>
      exact ⟨[], d, .nil, (List.append_nil _).symm, h.op hi hnext⟩
  | free i l j c k ℓ m x o f hi hnext => exact h.free hi hnext

end Steps

/-- The refinement: behind every run of the threads with their locks there is a run in
which each call is one step, with the same jobs started and ended with the same
results. -/
theorem Abstraction.Refines.exists_run (hcorrect : ∀ c, A.Correct S.exec c (body c))
    {s₀ : Fine M Call Ans ι L J β} {d₀ : Config Call Ans ι σ L J β}
    (h₀ : A.Refines S.exec s₀ d₀) {as : List (Choice ι J)}
    {ok : List (Choice ι J) → Fine M Call Ans ι L J β → Choice ι J → Prop}
    (h : (fine S body).Run ok s₀ as s) :
    ∃ t d, S.AnyRun d₀ t d ∧ s.marks = s₀.marks ++ t.filterMap Label.mark ∧
      A.Refines S.exec s d := by
  induction h with
  | nil => exact ⟨[], d₀, .nil, (List.append_nil _).symm, h₀⟩
  | snoc _ hnext _ ih =>
      obtain ⟨t, d, hrun, hmarks, hrefines⟩ := ih
      obtain ⟨t', d', hrun', hmarks', hrefines'⟩ :=
        hrefines.step hcorrect (step_of_fine hnext)
      refine ⟨t ++ t', d', hrun.append hrun', ?_, hrefines'⟩
      rw [hmarks', hmarks, List.filterMap_append, List.append_assoc]

/-! ## No thread is stuck -/

/-- A step of a thread, not the start of a job. -/
def Choice.IsStep (a : Choice ι J) : Prop := ∃ i, a = .step i

/-- Thread `i` has come out of its call and has given the lock back; the other threads are
where they were. -/
def Abstraction.Out (A : Abstraction M σ) (S : System Call Ans σ L J β)
    (thread₀ : ι → FineThread M Call Ans L J β) (i : ι) (l : L) (j : J) {c : Call}
    (k : Ans c → Program Call Ans (L × β)) (ℓ : Lk) (s : Fine M Call Ans ι L J β) :
    Prop :=
  (∃ d, A.Refines S.exec s d) ∧ (∃ r, s.thread i = .ready l j (k r)) ∧ s.held ℓ = none ∧
    ∀ i', i' ≠ i → s.thread i' = thread₀ i'

section Progress

variable (hcorrect : ∀ c, A.Correct S.exec c (body c))
  {thread₀ : ι → FineThread M Call Ans L J β} {i : ι} {l : L} {j : J} {c : Call}
  {k : Ans c → Program Call Ans (L × β)} {ℓ : Lk} {m : M.Method ℓ (Ans c)} {x : m.Loc}
include hcorrect

theorem Abstraction.Refines.out_of_ret (h : A.Refines S.exec s d) {r : Ans c}
    (hi : s.thread i = .inside l j c k ℓ m x) (hnext : m.next x = .ret r)
    (hthread : ∀ i', i' ≠ i → s.thread i' = thread₀ i') :
    (fine S body).CanReach Choice.IsStep (A.Out S thread₀ i l j k ℓ) s := by
  have hstep : FineStep S body s (.step i) _ := .leave i l j c k ℓ m x r hi hnext
  obtain ⟨-, d', -, -, hrefines⟩ := h.step hcorrect hstep
  refine .step ⟨i, rfl⟩ (fine_of_step hstep) (.here ⟨⟨d', hrefines⟩, ⟨r, ?_⟩, ?_, ?_⟩)
  · exact Function.update_self ..
  · exact Function.update_self ..
  · intro i' hi'
    exact (Function.update_of_ne hi' _ _).trans (hthread i' hi')

/-- A method that has taken its effect comes to its end. -/
theorem Abstraction.Completes.canReach_out {v : A.View ℓ} {r : Ans c} {p : M.Part ℓ}
    (hm : A.Completes m v r x p) (h : A.Refines S.exec s d)
    (hi : s.thread i = .inside l j c k ℓ m x) (hpart : s.part ℓ = p)
    (hthread : ∀ i', i' ≠ i → s.thread i' = thread₀ i') :
    (fine S body).CanReach Choice.IsStep (A.Out S thread₀ i l j k ℓ) s := by
  induction hm generalizing s d with
  | ret hnext => exact h.out_of_ret hcorrect hi hnext hthread
  | op hnext _ ih =>
      subst hpart
      have hstep : FineStep S body s (.step i) _ := .op i l j c k ℓ m _ _ _ hi hnext
      refine .step ⟨i, rfl⟩ (fine_of_step hstep)
        (ih (h.op hi hnext) ?_ ?_ fun i' hi' => ?_)
      · exact Function.update_self ..
      · exact Function.update_self ..
      · exact (Function.update_of_ne hi' _ _).trans (hthread i' hi')

theorem Abstraction.Implements.canReach_out {p : M.Part ℓ}
    (hm : A.Implements S.exec c m (A.view ℓ d.shared) x p) (h : A.Refines S.exec s d)
    (hi : s.thread i = .inside l j c k ℓ m x) (hpart : s.part ℓ = p)
    (hthread : ∀ i', i' ≠ i → s.thread i' = thread₀ i') :
    (fine S body).CanReach Choice.IsStep (A.Out S thread₀ i l j k ℓ) s := by
  generalize hv : A.view ℓ d.shared = v at hm
  induction hm generalizing s d with
  | ret hnext => exact h.out_of_ret hcorrect hi hnext hthread
  | op hnext _ ih =>
      subst hpart
      have hstep : FineStep S body s (.step i) _ := .op i l j c k ℓ m _ _ _ hi hnext
      refine .step ⟨i, rfl⟩ (fine_of_step hstep)
        (ih (h.op hi hnext) ?_ ?_ (fun i' hi' => ?_) hv)
      · exact Function.update_self ..
      · exact Function.update_self ..
      · exact (Function.update_of_ne hi' _ _).trans (hthread i' hi')
  | free hnext heffect =>
      have hstep : FineStep S body s (.step i) _ := .free i l j c k ℓ m _ _ _ hi hnext
      obtain ⟨-, d', -, -, hrefines⟩ := h.step hcorrect hstep
      obtain ⟨hcompletes, -, -⟩ := heffect d.shared hv
      rw [h.rest] at hcompletes
      refine .step ⟨i, rfl⟩ (fine_of_step hstep)
        (hcompletes.canReach_out hcorrect hrefines ?_ ?_
        fun i' hi' => ?_)
      · exact Function.update_self ..
      · exact hpart
      · exact (Function.update_of_ne hi' _ _).trans (hthread i' hi')

/-- A thread that holds a lock can come out of its call. -/
theorem Abstraction.Refines.canReach_out (h : A.Refines S.exec s d)
    (hi : s.thread i = .inside l j c k ℓ m x) :
    (fine S body).CanReach Choice.IsStep (A.Out S s.thread i l j k ℓ) s := by
  have hshows := h.thread i
  rw [hi] at hshows
  rcases hshows with ⟨-, himplements⟩ | ⟨r, -, hcompletes⟩
  · exact himplements.canReach_out hcorrect h hi rfl fun _ _ => rfl
  · exact hcompletes.canReach_out hcorrect h hi rfl fun _ _ => rfl

/-- Every lock can be had: whoever holds it can give it back, with nothing else
changed. -/
theorem Abstraction.Refines.canReach_free (h : A.Refines S.exec s d) (ℓ : Lk)
    (hi : (s.thread i).lock ≠ some ℓ) :
    (fine S body).CanReach Choice.IsStep (fun s' => (∃ d', A.Refines S.exec s' d') ∧
      s'.held ℓ = none ∧ s'.thread i = s.thread i) s := by
  cases hheld : s.held ℓ with
  | none => exact .here ⟨⟨d, h⟩, hheld, rfl⟩
  | some i' =>
      have hne : i ≠ i' := by
        rintro rfl
        exact hi ((h.holder i ℓ).mp hheld)
      have hlock := (h.holder i' ℓ).mp hheld
      cases hi' : s.thread i' with
      | idle l => simp [hi', FineThread.lock] at hlock
      | ready l j p => simp [hi', FineThread.lock] at hlock
      | inside l j c k ℓ' m x =>
          obtain rfl : ℓ' = ℓ := by simpa [hi', FineThread.lock] using hlock
          refine (h.canReach_out hcorrect hi').trans fun s' hout => .here ?_
          obtain ⟨hrefines, -, hfree, hthread⟩ := hout
          exact ⟨hrefines, hfree, hthread i hne⟩

/-- From between two calls, a thread can be brought to the end of its job. -/
theorem Abstraction.Refines.canReach_idle_of_ready {p : Program Call Ans (L × β)}
    (h : A.Refines S.exec s d) (hi : s.thread i = .ready l j p) :
    (fine S body).CanReach Choice.IsStep (fun s' => (∃ d', A.Refines S.exec s' d') ∧
      ∃ l', s'.thread i = .idle l') s := by
  induction p generalizing s d with
  | ret out =>
      obtain ⟨l', b⟩ := out
      have hstep : FineStep S body s (.step i) _ := .finish i l j l' b hi
      obtain ⟨-, d', -, -, hrefines⟩ := h.step hcorrect hstep
      refine .step ⟨i, rfl⟩ (fine_of_step hstep) (.here ⟨⟨d', hrefines⟩, l', ?_⟩)
      exact Function.update_self ..
  | call c k ih =>
      cases hbody : body c with
      | free o f =>
          have hstep : FineStep S body s (.step i) _ := .atOnce i l j c k o f hi hbody
          obtain ⟨-, d', -, -, hrefines⟩ := h.step hcorrect hstep
          refine .step ⟨i, rfl⟩ (fine_of_step hstep)
            (ih (f (M.free o s.rest).1) hrefines ?_)
          exact Function.update_self ..
      | locked ℓ m =>
          have hlock : (s.thread i).lock ≠ some ℓ := by simp [hi, FineThread.lock]
          refine (h.canReach_free hcorrect ℓ hlock).trans fun s₁ hs₁ => ?_
          obtain ⟨⟨d₁, h₁⟩, hfree, hi₁⟩ := hs₁
          rw [hi] at hi₁
          have hstep : FineStep S body s₁ (.step i) _ :=
            .enter i l j c k ℓ m hi₁ hbody hfree
          obtain ⟨-, d₂, -, -, h₂⟩ := h₁.step hcorrect hstep
          refine .step ⟨i, rfl⟩ (fine_of_step hstep) ?_
          refine (h₂.canReach_out hcorrect (Function.update_self ..)).trans
            fun s₃ hs₃ => ?_
          obtain ⟨⟨d₃, h₃⟩, ⟨r, hi₃⟩, -, -⟩ := hs₃
          exact ih r h₃ hi₃

/-- No deadlock: from every state behind which there is one of the system, every thread
can be brought to the end of its job, by steps of threads that are at work. -/
theorem Abstraction.Refines.canReach_idle (h : A.Refines S.exec s d) (i : ι) :
    (fine S body).CanReach Choice.IsStep (fun s' => (∃ d', A.Refines S.exec s' d') ∧
      ∃ l', s'.thread i = .idle l') s := by
  cases hi : s.thread i with
  | idle l => exact .here ⟨⟨d, h⟩, l, hi⟩
  | ready l j p => exact h.canReach_idle_of_ready hcorrect hi
  | inside l j c k ℓ m x =>
      refine (h.canReach_out hcorrect hi).trans fun s' hs' => ?_
      obtain ⟨⟨d', h'⟩, ⟨r, hi'⟩, -, -⟩ := hs'
      exact h'.canReach_idle_of_ready hcorrect hi'

end Progress

end
