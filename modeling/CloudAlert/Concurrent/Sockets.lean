import Mathlib.Data.Fintype.Basic
import CloudAlert.Concurrent.Threads

/-!
# The entry of the newest session

Sessions are opened, log in and end on threads of their own. A connection is open from
the start of its `connect` until `closesocket`, which is the last step of its
`disconnect`, and the system gives out the handle of no open connection. `newest u` is
the thread whose session made the last `RegisterUser` of `u` and has not begun to end.

`SocketsOk` is the invariant behind `newest_is_online`: each thread works on the handle
of its open connection, no two connections share one, and the entry of `u` is the handle
of the newest session.
-/

namespace CloudAlert

open Program

section

variable {ι : Type*} [DecidableEq ι]

/-! ## Open connections -/

/-- The handle of each thread's connection after a step. -/
def openStep (handle : ι → Option Socket) (lbl : ServerStep ι) : ι → Option Socket :=
  match lbl.job, lbl.kind with
  | .connect sock, .start => Function.update handle lbl.thread (some sock)
  | .disconnect, .finish _ => Function.update handle lbl.thread none
  | _, _ => handle

/-- The handle of each thread's open connection. -/
def opened (t : List (ServerStep ι)) : ι → Option Socket := t.foldl openStep fun _ => none

theorem opened_snoc (t : List (ServerStep ι)) (lbl : ServerStep ι) :
    opened (t ++ [lbl]) = openStep (opened t) lbl := List.foldl_concat ..

/-- A connection is accepted on a thread that has none, under a handle that no open
connection has; lines and the end of a connection come on a thread that has one. -/
def HandleFree (t : List (ServerStep ι)) (lbl : ServerStep ι) : Prop :=
  match lbl.job, lbl.kind with
  | .connect sock, .start => opened t lbl.thread = none ∧ ∀ i, opened t i ≠ some sock
  | .line _, .start => (opened t lbl.thread).isSome
  | .disconnect, .start => (opened t lbl.thread).isSome
  | _, _ => True

instance [Fintype ι] (t : List (ServerStep ι)) (lbl : ServerStep ι) :
    Decidable (HandleFree t lbl) := by
  unfold HandleFree
  split <;> infer_instance

/-! ## The newest session -/

/-- The newest session of `u` after a step. -/
def newestStep (u : ℤ) (newest : Option ι) (lbl : ServerStep ι) : Option ι :=
  match lbl.job, lbl.kind with
  | .disconnect, .start => if newest = some lbl.thread then none else newest
  | _, .call (.registerSocket uid _) _ => if uid = u then some lbl.thread else newest
  | _, _ => newest

/-- The thread whose session made the last `RegisterUser` of `u`, unless its destructor
has started since. -/
def newest (u : ℤ) (t : List (ServerStep ι)) : Option ι := t.foldl (newestStep u) none

theorem newest_snoc (u : ℤ) (t : List (ServerStep ι)) (lbl : ServerStep ι) :
    newest u (t ++ [lbl]) = newestStep u (newest u t) lbl := List.foldl_concat ..

/-! ## The invariant -/

/-- The job works on the handle of the thread's open connection. -/
def Job.worksOn (job : Job) (self : Session) (handle : Option Socket) : Prop :=
  match job with
  | .connect sock => handle = some sock
  | .line _ | .disconnect => handle = some self.sock
  | _ => ∀ sock, handle = some sock → self.sock = sock

/-- What every step keeps. -/
structure SocketsOk (t : List (ServerStep ι)) (c : Threads ι) : Prop where
  idle : ∀ i self, c.thread i = .idle self → ∀ sock, opened t i = some sock →
    self.sock = sock
  busy : ∀ i self job p, c.thread i = .busy self job p → job.worksOn self (opened t i)
  distinct : ∀ i j sock, opened t i = some sock → opened t j = some sock → i = j
  entry : ∀ u i, newest u t = some i → ∃ sock, opened t i = some sock ∧
    c.shared.userSockets u = some sock ∧ ∀ self p, c.thread i ≠ .busy self .disconnect p

theorem socketsOk_idleAt (w₀ : World) (memory : ι → Session) :
    SocketsOk [] (System.idleAt w₀ memory : Threads ι) where
  idle _ _ _ _ h := by cases h
  busy _ _ _ _ h := by cases h
  distinct _ _ _ h := by cases h
  entry _ _ h := by cases h

/-! ## One step -/

theorem openStep_cases (handle : ι → Option Socket) (lbl : ServerStep ι) :
    openStep handle lbl = handle ∨
      (∃ sock, lbl.job = .connect sock ∧ lbl.kind = .start ∧
        openStep handle lbl = Function.update handle lbl.thread (some sock)) ∨
      (lbl.job = .disconnect ∧ (∃ b, lbl.kind = .finish b) ∧
        openStep handle lbl = Function.update handle lbl.thread none) := by
  obtain ⟨i, self, job, kind⟩ := lbl
  cases job with
  | connect sock =>
      cases kind with
      | start => exact .inr (.inl ⟨sock, rfl, rfl, rfl⟩)
      | _ => exact .inl rfl
  | disconnect =>
      cases kind with
      | finish b => exact .inr (.inr ⟨rfl, ⟨b, rfl⟩, rfl⟩)
      | _ => exact .inl rfl
  | _ => exact .inl rfl

/-- A step concerns the connection of its own thread only. -/
theorem openStep_of_ne (handle : ι → Option Socket) {lbl : ServerStep ι} {i : ι}
    (h : i ≠ lbl.thread) : openStep handle lbl i = handle i := by
  rcases openStep_cases handle lbl with heq | ⟨sock, -, -, heq⟩ | ⟨-, -, heq⟩
  · rw [heq]
  · rw [heq, Function.update_of_ne h]
  · rw [heq, Function.update_of_ne h]

/-- The newest session after a step has just registered, or it was the newest one
before. -/
theorem newestStep_cases {u : ℤ} {n : Option ι} {lbl : ServerStep ι} {i : ι}
    (h : newestStep u n lbl = some i) :
    (lbl.thread = i ∧ ∃ sock, lbl.kind = .call (.registerSocket u sock) ()) ∨
      (n = some i ∧ (∀ sock r, lbl.kind ≠ .call (.registerSocket u sock) r) ∧
        ¬ (lbl.job = .disconnect ∧ lbl.kind = .start ∧ lbl.thread = i)) := by
  obtain ⟨j, self, job, kind⟩ := lbl
  have hkept : ∀ {job kind}, newestStep u n ⟨j, self, job, kind⟩ = n →
      newestStep u n ⟨j, self, job, kind⟩ = some i → n = some i := fun heq h => heq ▸ h
  cases kind with
  | start =>
      cases job with
      | disconnect =>
          obtain ⟨hne, hn⟩ := Option.ite_none_left_eq_some.mp h
          refine .inr ⟨hn, nofun, ?_⟩
          rintro ⟨-, -, rfl⟩
          exact hne hn
      | _ => exact .inr ⟨hkept rfl h, nofun, fun hdisc => nomatch hdisc.1⟩
  | call o r =>
      cases o with
      | registerSocket uid sock =>
          have hstep : newestStep u n ⟨j, self, job, .call (.registerSocket uid sock) r⟩ =
              if uid = u then some j else n := by cases job <;> rfl
          rw [hstep] at h
          by_cases huid : uid = u
          · rw [if_pos huid] at h
            exact .inl ⟨Option.some.inj h, sock, huid ▸ rfl⟩
          · rw [if_neg huid] at h
            refine .inr ⟨h, ?_, fun hdisc => nomatch hdisc.2.1⟩
            rintro _ _ heq
            cases heq
            exact huid rfl
      | _ =>
          exact .inr ⟨hkept (by cases job <;> rfl) h, nofun,
            fun hdisc => nomatch hdisc.2.1⟩
  | finish b =>
      exact .inr ⟨hkept (by cases job <;> rfl) h, nofun, fun hdisc => nomatch hdisc.2.1⟩

variable {ok : List (ServerStep ι) → Threads ι → ServerStep ι → Prop}
  {w₀ : World} {memory : ι → Session} {t : List (ServerStep ι)} {c c' : Threads ι}
  {lbl : ServerStep ι}

/-- A handle that nobody holds, or none, keeps the handles apart. -/
theorem distinct_update {handle : ι → Option Socket}
    (h : ∀ i j sock, handle i = some sock → handle j = some sock → i = j) (k : ι)
    {new : Option Socket} (hnew : ∀ sock, new = some sock → ∀ i, handle i ≠ some sock)
    {i j : ι} {sock : Socket} (hi : Function.update handle k new i = some sock)
    (hj : Function.update handle k new j = some sock) : i = j := by
  by_cases hik : i = k
  · by_cases hjk : j = k
    · exact hik.trans hjk.symm
    · rw [hik, Function.update_self] at hi
      rw [Function.update_of_ne hjk] at hj
      exact absurd hj (hnew sock hi j)
  · rw [Function.update_of_ne hik] at hi
    by_cases hjk : j = k
    · rw [hjk, Function.update_self] at hj
      exact absurd hi (hnew sock hj i)
    · rw [Function.update_of_ne hjk] at hj
      exact h i j sock hi hj

theorem SocketsOk.distinct_step (h : SocketsOk t c) (hfree : HandleFree t lbl)
    {i j : ι} {sock : Socket} (hi : openStep (opened t) lbl i = some sock)
    (hj : openStep (opened t) lbl j = some sock) : i = j := by
  rcases openStep_cases (opened t) lbl with heq | ⟨new, hjob, hkind, heq⟩ | ⟨-, -, heq⟩
  · rw [heq] at hi hj
    exact h.distinct i j sock hi hj
  · unfold HandleFree at hfree
    rw [hjob, hkind] at hfree
    have hnew : ∀ sock', some new = some sock' → ∀ k, opened t k ≠ some sock' := by
      rintro _ ⟨⟩
      exact hfree.2
    rw [heq] at hi hj
    exact distinct_update h.distinct _ hnew hi hj
  · have hnew : ∀ sock', none = some sock' → ∀ k, opened t k ≠ some sock' := nofun
    rw [heq] at hi hj
    exact distinct_update h.distinct _ hnew hi hj

theorem SocketsOk.idle_step (h : SocketsOk t c) (hkeeps : KeepsJobs c)
    (hstep : server.Step c lbl c') {i : ι} {self : Session}
    (hi : c'.thread i = .idle self) {sock : Socket}
    (hopen : openStep (opened t) lbl i = some sock) : self.sock = sock := by
  rcases hstep.idle_inv hi with ⟨hne, hidle⟩ | ⟨self', job, b, rfl, hbusy⟩
  · rw [openStep_of_ne _ hne] at hopen
    exact h.idle i self hidle sock hopen
  · have hworks := h.busy i self' job _ hbusy
    have hresult : ServerResult job self' (self, b) := hkeeps.busy i self' job _ hbusy
    cases job with
    | connect new =>
        rw [show self = Session.new new from hresult]
        exact Option.some.inj (hworks.symm.trans hopen)
    | line line => exact hresult.1.trans (Option.some.inj (hworks.symm.trans hopen))
    | disconnect =>
        have hgone : Function.update (opened t) i none i = some sock := hopen
        rw [Function.update_self] at hgone
        cases hgone
    | _ =>
        rw [show self = self' from hresult]
        exact hworks sock hopen

theorem SocketsOk.busy_step (h : SocketsOk t c) (hfree : HandleFree t lbl)
    (hstep : server.Step c lbl c') {i : ι} {self : Session} {job : Job}
    {p : Handler} (hi : c'.thread i = .busy self job p) :
    job.worksOn self (openStep (opened t) lbl i) := by
  rcases hstep.busy_inv hi with ⟨hne, hbusy⟩ | ⟨rfl, hidle, -⟩ | ⟨o, k, rfl, hbusy, -⟩
  · rw [openStep_of_ne _ hne]
    exact h.busy i self job p hbusy
  · have hown : ∀ sock, opened t i = some sock → self.sock = sock :=
      fun sock hopen => h.idle i self hidle sock hopen
    have hsome : (opened t i).isSome → opened t i = some self.sock := by
      intro hopen
      obtain ⟨sock, hsock⟩ := Option.isSome_iff_exists.mp hopen
      rw [hsock, hown sock hsock]
    cases job with
    | connect sock => exact Function.update_self ..
    | line line => exact hsome hfree
    | disconnect => exact hsome hfree
    | _ => exact hown
  · have hworks := h.busy i self job _ hbusy
    cases job <;> exact hworks

/-- The entry of the newest session stays as it is: a destructor removes only the entry of
its own handle, and that is another one. -/
theorem SocketsOk.entry_kept (h : SocketsOk t c) (hkeeps : KeepsJobs c)
    (hstep : server.Step c lbl c') {u : ℤ} {i : ι} {sock : Socket}
    (hopen : opened t i = some sock) (hentry : c.shared.userSockets u = some sock)
    (hlive : ∀ self p, c.thread i ≠ .busy self .disconnect p)
    (hquiet : ∀ sock r, lbl.kind ≠ .call (.registerSocket u sock) r) :
    c'.shared.userSockets u = some sock := by
  cases hstep with
  | start => exact hentry
  | finish => exact hentry
  | call j self job o k hbusy =>
      have hcall := (hkeeps.busy j self job _ hbusy).1
      have hworks := h.busy j self job _ hbusy
      cases o with
      | registerSocket uid sock' =>
          have hne : u ≠ uid := by
            rintro rfl
            exact hquiet sock' _ rfl
          change Function.update c.shared.userSockets uid (some sock') u = some sock
          rw [Function.update_of_ne hne, hentry]
      | unregisterSocket uid sock' =>
          cases job with
          | disconnect =>
              obtain ⟨-, rfl, rfl⟩ := hcall
              have hother : c.shared.userSockets self.userId ≠ some self.sock ∨
                  u ≠ self.userId := by
                by_contra hboth
                push Not at hboth
                obtain ⟨hown, rfl⟩ := hboth
                have hsock : sock = self.sock := Option.some.inj (hentry.symm.trans hown)
                obtain rfl := h.distinct i j sock hopen (hsock ▸ hworks)
                exact hlive self _ hbusy
              rw [← hentry]
              change (if _ then _ else _ : Unit × World).2.userSockets u = _
              split
              · rename_i hown
                exact Function.update_of_ne (hother.resolve_left (not_not.mpr hown)) _ _
              · rfl
          | line line => exact hcall.elim
          | _ => exact hcall.elim
      | _ =>
          rw [← hentry]
          refine congrFun (exec_userSockets ?_ ?_ c.shared) u
          · rintro _ _ ⟨⟩
          · rintro _ _ ⟨⟩

theorem SocketsOk.entry_new (h : SocketsOk t c) (hkeeps : KeepsJobs c)
    (hstep : server.Step c lbl c') {u : ℤ} {sock : Socket}
    (hkind : lbl.kind = .call (.registerSocket u sock) ()) :
    ∃ sock, openStep (opened t) lbl lbl.thread = some sock ∧
      c'.shared.userSockets u = some sock ∧
      ∀ self p, c'.thread lbl.thread ≠ .busy self .disconnect p := by
  cases hstep with
  | start => cases hkind
  | finish => cases hkind
  | call i self job o k hbusy =>
      cases hkind
      have hcall := (hkeeps.busy i self job _ hbusy).1
      have hworks := h.busy i self job _ hbusy
      cases job with
      | line line =>
          obtain ⟨-, rfl⟩ := hcall
          refine ⟨self.sock, hworks, Function.update_self .., ?_⟩
          intro self' p hi
          simp at hi
      | disconnect => exact hcall.elim
      | _ => exact hcall.elim

/-- A connection stays open until the last step of its `disconnect`. -/
theorem open_kept (hfree : HandleFree t lbl)
    (hstep : server.Step c lbl c') {i : ι} {sock : Socket}
    (hopen : opened t i = some sock)
    (hlive : ∀ self out, c.thread i ≠ .busy self .disconnect (.ret out)) :
    openStep (opened t) lbl i = some sock := by
  by_cases hthread : i = lbl.thread
  · rcases openStep_cases (opened t) lbl with heq | ⟨new, hjob, hkind, -⟩
      | ⟨hjob, ⟨b, hkind⟩, -⟩
    · rw [heq, hopen]
    · unfold HandleFree at hfree
      rw [hjob, hkind] at hfree
      rw [← hthread, hopen] at hfree
      cases hfree.1
    · cases hstep with
      | start => cases hkind
      | call => cases hkind
      | finish j self job out b' hbusy =>
          obtain rfl : i = j := hthread
          obtain rfl : job = .disconnect := hjob
          exact absurd hbusy (hlive self _)
  · rw [openStep_of_ne _ hthread, hopen]

/-- A session ends only when its `disconnect` starts. -/
theorem not_ending_step (hstep : server.Step c lbl c') {i : ι}
    (hlive : ∀ self p, c.thread i ≠ .busy self .disconnect p)
    (hending : ¬ (lbl.job = .disconnect ∧ lbl.kind = .start ∧ lbl.thread = i)) :
    ∀ self p, c'.thread i ≠ .busy self .disconnect p := by
  intro self p hi
  rcases hstep.busy_inv hi with ⟨-, hbusy⟩ | ⟨rfl, -, -⟩ | ⟨o, k, -, hbusy, -⟩
  · exact hlive self p hbusy
  · exact hending ⟨rfl, rfl, rfl⟩
  · exact hlive self _ hbusy

theorem SocketsOk.step (h : SocketsOk t c) (hkeeps : KeepsJobs c)
    (hfree : HandleFree t lbl) (hstep : server.Step c lbl c') :
    SocketsOk (t ++ [lbl]) c' := by
  constructor
  · intro i self hi sock hopen
    rw [opened_snoc] at hopen
    exact h.idle_step hkeeps hstep hi hopen
  · intro i self job p hi
    rw [opened_snoc]
    exact h.busy_step hfree hstep hi
  · intro i j sock hi hj
    rw [opened_snoc] at hi hj
    exact h.distinct_step hfree hi hj
  · intro u i hnewest
    rw [newest_snoc] at hnewest
    rw [opened_snoc]
    rcases newestStep_cases hnewest with ⟨rfl, sock, hkind⟩ | ⟨hn, hquiet, hending⟩
    · exact h.entry_new hkeeps hstep hkind
    · obtain ⟨sock, hopen, hentry, hlive⟩ := h.entry u i hn
      exact ⟨sock, open_kept hfree hstep hopen fun self out => hlive self (.ret out),
        h.entry_kept hkeeps hstep hopen hentry hlive hquiet,
        not_ending_step hstep hlive hending⟩

theorem socketsOk_of_run
    (h : server.Run (fun t _ lbl => HandleFree t lbl) (System.idleAt w₀ memory) t c) :
    SocketsOk t c := by
  induction h with
  | nil => exact socketsOk_idleAt w₀ memory
  | snoc hrun hnext hfree ih =>
      exact ih.step (run_keeps hrun) hfree (System.step_of_next server hnext)

/-- While the session that made the last `RegisterUser` of `u` has not begun to end, the
entry of `u` is the handle of its connection, whatever other sessions of `u` do. -/
theorem newest_is_online
    (h : server.Run (fun t _ lbl => HandleFree t lbl) (System.idleAt w₀ memory) t c)
    {u : ℤ} {i : ι} (hnewest : newest u t = some i) :
    ∃ sock, opened t i = some sock ∧ c.shared.userSockets u = some sock := by
  obtain ⟨sock, hopen, hentry, -⟩ := (socketsOk_of_run h).entry u i hnewest
  exact ⟨sock, hopen, hentry⟩

end

/-- Ann logs in on two connections. The first one ends, and its handle is given to a third
connection. -/
def secondLogin : List (Choice (Fin 3) Job) :=
  [Choice.start 0 (Job.connect 7), Choice.step 0] ++
  Choice.start 0 (Job.line (ascii "REGISTER ann pw a@b")) :: List.replicate 2
    (Choice.step 0) ++
  Choice.start 0 (Job.line (ascii "LOGIN ann pw")) :: List.replicate 3 (Choice.step 0) ++
  [Choice.start 1 (Job.connect 8), Choice.step 1] ++
  Choice.start 1 (Job.line (ascii "LOGIN ann pw")) :: List.replicate 3 (Choice.step 1) ++
  Choice.start 0 Job.disconnect :: List.replicate 2 (Choice.step 0) ++
  [Choice.start 2 (Job.connect 7), Choice.step 2]

set_option maxRecDepth 10000 in
/-- The end of the first session leaves the entry of the second one alone. -/
theorem second_login_is_online :
    ∃ t c, server.Run (fun t _ lbl => HandleFree t lbl)
        (System.idleAt newWorld fun _ : Fin 3 => .new 0) t c ∧
      c.shared.userSockets 1 = some 8 := by
  have hstate : (server.followIf (fun t _ lbl => decide (HandleFree t lbl)) []
      (System.idleAt newWorld fun _ => .new 0) secondLogin).map
        (fun out => (newest 1 out.1, opened out.1 1)) = some (some 1, some 8) := by
    decide +kernel
  obtain ⟨⟨t, c⟩, hfollow, hends⟩ := Option.map_eq_some_iff.mp hstate
  obtain ⟨hnewest, hopen⟩ := Prod.mk.inj hends
  have hrun := (System.run_of_followIf .nil hfollow).mono
    fun _ _ _ hallowed => of_decide_eq_true hallowed
  obtain ⟨sock, hsock, hentry⟩ := newest_is_online hrun hnewest
  refine ⟨t, c, hrun, ?_⟩
  rw [hentry, ← hsock, hopen]

end CloudAlert
