import CloudAlert.Concurrent.Sockets
import CloudAlert.Program.Machine
import CloudAlert.Session.Commands

/-!
# Pushing an alert

`ProcessNotifyTask` looks the socket of the user up under `m_cs` and sends after it has
released it. `pushes` runs the notification worker beside the threads of the server: a
step is one of theirs, the lookup of a task, or the `send` that follows.

`PushOk` is the invariant. While each session logs in at most once, every entry of
`m_userSockets` is the handle of an open session of its user (`EntryOk`), and so is the
handle that the worker has looked up, as long as no new connection is given it
(`NotRecycled`).
-/

namespace CloudAlert

open Program

section

variable {ι : Type*} [DecidableEq ι]

/-! ## Logins -/

/-- The user id of each thread's session after a step. -/
def loginStep (login : ι → Option ℤ) (lbl : ServerStep ι) : ι → Option ℤ :=
  match lbl.job, lbl.kind with
  | .connect _, .start => Function.update login lbl.thread none
  | _, .call (.registerSocket uid _) _ => Function.update login lbl.thread (some uid)
  | _, _ => login

/-- The user id with which each thread's session made its last `RegisterUser`. -/
def loggedIn (t : List (ServerStep ι)) : ι → Option ℤ := t.foldl loginStep fun _ => none

theorem loggedIn_snoc (t : List (ServerStep ι)) (lbl : ServerStep ι) :
    loggedIn (t ++ [lbl]) = loginStep (loggedIn t) lbl := List.foldl_concat ..

/-- A session that logs in has not done so before. -/
def LoginOnce (t : List (ServerStep ι)) (lbl : ServerStep ι) : Prop :=
  match lbl.kind with
  | .call (.registerSocket _ _) _ => loggedIn t lbl.thread = none
  | _ => True

instance (t : List (ServerStep ι)) (lbl : ServerStep ι) :
    Decidable (LoginOnce t lbl) := by
  obtain ⟨thread, memory, job, kind⟩ := lbl
  unfold LoginOnce
  dsimp only
  split <;> infer_instance

/-! ## The machine -/

/-- The threads of the server with their trace, and the task and the socket between
`LeaveCriticalSection` and `send` of the worker. -/
structure Push (ι : Type*) where
  threads : Threads ι
  trace : List (ServerStep ι)
  hand : Option (NotifyTask × Socket)

/-- A server started on a database, and its worker. -/
def Push.start (db : AlertDB) (marketData : Bool) (clock : ℕ → LocalTime)
    (memory : ι → Session) : Push ι :=
  ⟨System.idleAt (.fresh db marketData clock) memory, [], none⟩

/-- What can happen: a step of a thread of the server, the lookup of the `k`-th task
handed to `Notify`, the `send`. A task for which there is no entry goes to the e-mail. -/
inductive PushAction (ι : Type*) where
  | server (choice : Choice ι Job)
  | lookUp (k : ℕ)
  | write

/-- The server and its worker. -/
def pushes (ι : Type*) [DecidableEq ι] : Machine (Push ι) (PushAction ι) where
  next s
    | .server choice =>
        (server.next s.threads choice).map fun out =>
          { s with threads := out.2, trace := s.trace ++ [out.1] }
    | .lookUp k =>
        if s.hand.isNone then
          s.threads.shared.tasks[k]?.map fun task => { s with
            hand := (s.threads.shared.userSockets task.userId).map
              fun sock => (task, sock) }
        else none
    | .write => if s.hand.isSome then some { s with hand := none } else none

/-- What an action can do. -/
inductive PushStep (s : Push ι) : PushAction ι → Push ι → Prop where
  | server {choice lbl c} (hnext : server.next s.threads choice = some (lbl, c)) :
      PushStep s (.server choice) { s with threads := c, trace := s.trace ++ [lbl] }
  | lookUp {k task} (htask : s.threads.shared.tasks[k]? = some task) :
      PushStep s (.lookUp k) { s with
        hand := (s.threads.shared.userSockets task.userId).map fun sock => (task, sock) }
  | write : PushStep s .write { s with hand := none }

theorem step_of_pushes {s s' : Push ι} {a : PushAction ι}
    (h : (pushes ι).next s a = some s') : PushStep s a s' := by
  cases a with
  | server choice =>
      obtain ⟨⟨lbl, c⟩, hnext, rfl⟩ := Option.map_eq_some_iff.mp h
      exact .server hnext
  | lookUp k =>
      obtain ⟨-, h⟩ := Option.ite_none_right_eq_some.mp h
      obtain ⟨task, htask, rfl⟩ := Option.map_eq_some_iff.mp h
      exact .lookUp htask
  | write =>
      obtain ⟨-, h⟩ := Option.ite_none_right_eq_some.mp h
      obtain rfl := Option.some.inj h
      exact .write

/-! ## Runs -/

/-- The system gives out no handle that is open, and each session logs in at most once. -/
def Orderly (s : Push ι) : PushAction ι → Prop
  | .server choice => ∀ out ∈ server.next s.threads choice,
      HandleFree s.trace out.1 ∧ LoginOnce s.trace out.1
  | _ => True

/-- No new connection is given the handle between the lookup and the `send`. -/
def NotRecycled (s : Push ι) : PushAction ι → Prop
  | .server (.start _ (.connect sock)) => s.hand.map Prod.snd ≠ some sock
  | _ => True

instance [Fintype ι] (s : Push ι) (a : PushAction ι) : Decidable (Orderly s a) := by
  unfold Orderly
  split <;> infer_instance

instance (s : Push ι) (a : PushAction ι) : Decidable (NotRecycled s a) := by
  unfold NotRecycled
  split <;> infer_instance

/-- The `send` of the task writes to the connection of thread `i`. On a handle that is not
open it fails. -/
def Push.WritesTo (s : Push ι) (task : NotifyTask) (i : ι) : Prop :=
  ∃ sock, s.hand = some (task, sock) ∧ opened s.trace i = some sock

/-- What is written is written to a session of the task's user. -/
def Push.OwnUser (s : Push ι) : Prop :=
  ∀ task i, s.WritesTo task i → loggedIn s.trace i = some task.userId

/-! ## The user id of a session -/

/-- What a session takes its user id to be. -/
def Session.login (self : Session) : Option ℤ :=
  if self.userId = -1 then none else some self.userId

/-- The user id after a call. -/
def loginAfter (login : Option ℤ) (c : Call) (_ : c.Ans) : Option ℤ :=
  match c with
  | .registerSocket uid _ => some uid
  | _ => login

/-- The handler leaves a session that takes its user id to be the one it registered. -/
abbrev TracksLogin (h : Handler) (login : Option ℤ) : Prop :=
  h.Tracks loginAfter (fun _ => True) (fun login out => out.1.login = login) login

theorem handleLogin_tracks (self : Session) (line : Bytes) :
    TracksLogin (handleLogin self line) self.login := by
  unfold handleLogin
  split
  · refine ⟨trivial, fun uid => ?_⟩
    change TracksLogin (if uid < 0 then _ else _) self.login
    split
    · exact rfl
    · rename_i haccepted
      have huid : uid ≠ (-1 : ℤ) := fun heq => haccepted (heq ▸ neg_one_lt_zero)
      exact ⟨trivial, fun _ => if_neg huid⟩
  · exact rfl

theorem loginAfter_of_ne {login : Option ℤ} {o : Call} {r : o.Ans}
    (h : ∀ uid sock, o ≠ .registerSocket uid sock) : loginAfter login o r = login := by
  cases o with
  | registerSocket uid sock => exact absurd rfl (h uid sock)
  | _ => rfl

theorem loginStep_call (login : ι → Option ℤ) (i : ι) (self : Session)
    (job : Job) (o : Call) (r : o.Ans) :
    loginStep login ⟨i, self, job, .call o r⟩ i = loginAfter (login i) o r := by
  cases o with
  | registerSocket uid sock => cases job <;> exact Function.update_self ..
  | _ => cases job <;> rfl

theorem loginStep_cases (login : ι → Option ℤ) (lbl : ServerStep ι) :
    loginStep login lbl = login ∨
      (∃ sock, lbl.job = .connect sock ∧ lbl.kind = .start ∧
        loginStep login lbl = Function.update login lbl.thread none) ∨
      (∃ uid sock r, lbl.kind = .call (.registerSocket uid sock) r ∧
        loginStep login lbl = Function.update login lbl.thread (some uid)) := by
  obtain ⟨i, self, job, kind⟩ := lbl
  cases kind with
  | start =>
      cases job with
      | connect sock => exact .inr (.inl ⟨sock, rfl, rfl, rfl⟩)
      | _ => exact .inl rfl
  | call o r =>
      cases o with
      | registerSocket uid sock =>
          exact .inr (.inr ⟨uid, sock, r, rfl, by cases job <;> rfl⟩)
      | _ => exact .inl (by cases job <;> rfl)
  | finish b => exact .inl (by cases job <;> rfl)

/-- A step concerns the user id of its own thread only. -/
theorem loginStep_of_ne (login : ι → Option ℤ) {lbl : ServerStep ι} {i : ι}
    (h : i ≠ lbl.thread) : loginStep login lbl i = login i := by
  rcases loginStep_cases login lbl with heq | ⟨sock, -, -, heq⟩ | ⟨uid, sock, r, -, heq⟩
  · rw [heq]
  · rw [heq, Function.update_of_ne h]
  · rw [heq, Function.update_of_ne h]

/-- The user id of the thread's session while it goes on with the job as `p`. -/
def Job.knows (job : Job) (self : Session) (p : Handler) (login : Option ℤ) : Prop :=
  match job with
  | .connect _ => login = none
  | .line text => (commandWord text = ascii "LOGIN" → TracksLogin p login) ∧
      (commandWord text ≠ ascii "LOGIN" → login = self.login)
  | _ => login = self.login

/-- Only a LOGIN line registers a session, under its own socket. -/
theorem line_of_registerSocket {job : Job} {self : Session} {uid : ℤ} {sock : Socket}
    (h : ServerCall (fun _ _ => True) job self (.registerSocket uid sock)) :
    ∃ line, job = .line line ∧ commandWord line = ascii "LOGIN" ∧ sock = self.sock := by
  cases job with
  | line line => exact ⟨line, rfl, h⟩
  | _ => exact h.elim

theorem Job.knows_call {job : Job} {self : Session} {o : Call}
    {k : o.Ans → Handler} {login : Option ℤ}
    (hcall : ServerCall (fun _ _ => True) job self o)
    (h : job.knows self (.call o k) login) (r : o.Ans) :
    job.knows self (k r) (loginAfter login o r) := by
  have hother : (∀ line, job = .line line → commandWord line ≠ ascii "LOGIN") →
      loginAfter login o r = login := by
    refine fun hjob => loginAfter_of_ne ?_
    rintro uid sock rfl
    obtain ⟨line, rfl, hword, -⟩ := line_of_registerSocket hcall
    exact hjob line rfl hword
  cases job with
  | line line =>
      refine ⟨fun hword => (h.1 hword).2 r, fun hword => ?_⟩
      rw [hother fun _ hline => Job.line.inj hline ▸ hword]
      exact h.2 hword
  | _ => exact (hother nofun).trans h

/-- A session that is open takes its user id to be the one it registered. -/
structure KnowsLogin (t : List (ServerStep ι)) (c : Threads ι) : Prop where
  idle : ∀ i self, c.thread i = .idle self → (opened t i).isSome →
    loggedIn t i = self.login
  busy : ∀ i self job p, c.thread i = .busy self job p → (opened t i).isSome →
    job.knows self p (loggedIn t i)

theorem knowsLogin_idleAt (w₀ : World) (memory : ι → Session) :
    KnowsLogin [] (System.idleAt w₀ memory : Threads ι) where
  idle _ _ _ h := by cases h
  busy _ _ _ _ h := by cases h

variable {t : List (ServerStep ι)} {c c' : Threads ι} {lbl : ServerStep ι}

theorem KnowsLogin.idle_step (h : KnowsLogin t c) (hkeeps : KeepsJobs c)
    (hstep : server.Step c lbl c') {i : ι} {self : Session}
    (hi : c'.thread i = .idle self) (hopen : (openStep (opened t) lbl i).isSome) :
    loginStep (loggedIn t) lbl i = self.login := by
  rcases hstep.idle_inv hi with ⟨hne, hidle⟩ | ⟨self', job, b, rfl, hbusy⟩
  · rw [openStep_of_ne _ hne] at hopen
    rw [loginStep_of_ne _ hne]
    exact h.idle i self hidle hopen
  · have hknows := h.busy i self' job _ hbusy
    have hresult : ServerResult job self' (self, b) := hkeeps.busy i self' job _ hbusy
    cases job with
    | connect new =>
        rw [show self = Session.new new from hresult]
        exact hknows hopen
    | line line =>
        by_cases hword : commandWord line = ascii "LOGIN"
        · exact ((hknows hopen).1 hword).symm
        · rw [show self = self' from hresult.2.resolve_right hword]
          exact (hknows hopen).2 hword
    | disconnect =>
        have hgone : (Function.update (opened t) i none i).isSome := hopen
        rw [Function.update_self] at hgone
        cases hgone
    | _ =>
        rw [show self = self' from hresult]
        exact hknows hopen

theorem KnowsLogin.busy_step (h : KnowsLogin t c) (hkeeps : KeepsJobs c)
    (hstep : server.Step c lbl c') {i : ι} {self : Session} {job : Job} {p : Handler}
    (hi : c'.thread i = .busy self job p) (hopen : (openStep (opened t) lbl i).isSome) :
    job.knows self p (loginStep (loggedIn t) lbl i) := by
  rcases hstep.busy_inv hi with ⟨hne, hbusy⟩ | ⟨rfl, hidle, rfl⟩ | ⟨o, k, rfl, hbusy, rfl⟩
  · rw [openStep_of_ne _ hne] at hopen
    rw [loginStep_of_ne _ hne]
    exact h.busy i self job p hbusy hopen
  · cases job with
    | connect sock => exact Function.update_self ..
    | line line =>
        have hlogin : loggedIn t i = self.login := h.idle i self hidle hopen
        refine ⟨fun hword => ?_, fun _ => hlogin⟩
        change TracksLogin (dispatch self line) (loggedIn t i)
        rw [hlogin, dispatch_login hword]
        exact handleLogin_tracks self line
    | disconnect => exact h.idle i self hidle hopen
    | _ => exact h.idle i self hidle hopen
  · have hopen' : (opened t i).isSome := by cases job <;> exact hopen
    rw [loginStep_call]
    exact Job.knows_call (hkeeps.busy i self job _ hbusy).1
      (h.busy i self job _ hbusy hopen') _

theorem KnowsLogin.step (h : KnowsLogin t c) (hkeeps : KeepsJobs c)
    (hstep : server.Step c lbl c') : KnowsLogin (t ++ [lbl]) c' := by
  constructor
  · intro i self hi hopen
    rw [opened_snoc] at hopen
    rw [loggedIn_snoc]
    exact h.idle_step hkeeps hstep hi hopen
  · intro i self job p hi hopen
    rw [opened_snoc] at hopen
    rw [loggedIn_snoc]
    exact h.busy_step hkeeps hstep hi hopen

/-! ## The entries -/

/-- The session of thread `i` is open under the handle and logged in as `u`, and when it
ends it has still to remove its entry. -/
structure Owns (t : List (ServerStep ι)) (c : Threads ι) (u : ℤ) (sock : Socket) (i : ι) :
    Prop where
  isOpen : opened t i = some sock
  login : loggedIn t i = some u
  ending : ∀ self p, c.thread i = .busy self .disconnect p →
    ∃ k, p = .call (.unregisterSocket u sock) k

/-- Every entry of `m_userSockets` is the handle of an open session of its user. -/
def EntryOk (t : List (ServerStep ι)) (c : Threads ι) : Prop :=
  ∀ u sock, c.shared.userSockets u = some sock → ∃ i, Owns t c u sock i

/-- The user id of an open session stays as it is. -/
theorem login_kept (hfree : HandleFree t lbl) (honce : LoginOnce t lbl) {i : ι} {u : ℤ}
    (hopen : (opened t i).isSome) (hlogin : loggedIn t i = some u) :
    loginStep (loggedIn t) lbl i = some u := by
  by_cases hthread : i = lbl.thread
  · rcases loginStep_cases (loggedIn t) lbl with heq | ⟨sock, hjob, hkind, -⟩ |
      ⟨uid, sock, r, hkind, -⟩
    · rw [heq, hlogin]
    · unfold HandleFree at hfree
      rw [hjob, hkind] at hfree
      rw [hthread, hfree.1] at hopen
      cases hopen
    · unfold LoginOnce at honce
      rw [hkind] at honce
      rw [hthread, honce] at hlogin
      cases hlogin
  · rw [loginStep_of_ne _ hthread, hlogin]

theorem disconnect_code {self : Session} {u : ℤ} {sock : Socket}
    (hlogin : self.login = some u) (hsock : self.sock = sock) :
    ∃ k, server.code .disconnect self = .call (.unregisterSocket u sock) k := by
  obtain ⟨huid, huser⟩ := Option.ite_none_left_eq_some.mp hlogin
  obtain rfl := Option.some.inj huser
  obtain rfl := hsock
  refine ⟨fun _ => .ret (Session.new self.sock, ⟨[], false⟩), ?_⟩
  change (endSession self >>= fun _ => _) = _
  rw [endSession, if_pos huid]
  rfl

/-- `UnregisterUser` removes the entry it is called for. -/
theorem unregisterSocket_ne (u : ℤ) (sock : Socket) (w : World) :
    (exec (.unregisterSocket u sock) w).2.userSockets u ≠ some sock := by
  change (if _ then _ else _ : Unit × World).2.userSockets u ≠ some sock
  split
  · change Function.update w.userSockets u none u ≠ some sock
    rw [Function.update_self]
    nofun
  · assumption

theorem unregisterSocket_le {uid u : ℤ} {sock sock' : Socket} {w : World}
    (h : (exec (.unregisterSocket uid sock) w).2.userSockets u = some sock') :
    w.userSockets u = some sock' := by
  change (if _ then _ else _ : Unit × World).2.userSockets u = some sock' at h
  split at h
  · change Function.update w.userSockets uid none u = some sock' at h
    by_cases hu : u = uid
    · rw [hu, Function.update_self] at h
      cases h
    · rwa [Function.update_of_ne hu] at h
  · exact h

/-- The owner of an entry that a step leaves is its owner after the step. -/
theorem Owns.step {u : ℤ} {sock : Socket} {i : ι} (h : Owns t c u sock i)
    (hsockets : SocketsOk t c) (hknows : KnowsLogin t c) (hfree : HandleFree t lbl)
    (honce : LoginOnce t lbl) (hstep : server.Step c lbl c')
    (hentry : c'.shared.userSockets u = some sock) : Owns (t ++ [lbl]) c' u sock i := by
  have hopen : (opened t i).isSome := h.isOpen ▸ rfl
  constructor
  · rw [opened_snoc]
    refine open_kept hfree hstep h.isOpen fun self out hbusy => ?_
    obtain ⟨k, hcall⟩ := h.ending self _ hbusy
    cases hcall
  · rw [loggedIn_snoc]
    exact login_kept hfree honce hopen h.login
  · intro self p hi
    rcases hstep.busy_inv hi with ⟨-, hbusy⟩ | ⟨-, hidle, rfl⟩ | ⟨o, k, rfl, hbusy, -⟩
    · exact h.ending self p hbusy
    · have hsock : self.sock = sock := hsockets.idle i self hidle sock h.isOpen
      have hlogin : self.login = some u := hknows.idle i self hidle hopen ▸ h.login
      exact disconnect_code hlogin hsock
    · obtain ⟨k', hcall⟩ := h.ending self _ hbusy
      cases hcall
      rw [hstep.call_inv.2] at hentry
      exact absurd hentry (unregisterSocket_ne u sock c.shared)

theorem EntryOk.step (h : EntryOk t c) (hkeeps : KeepsJobs c)
    (hsockets : SocketsOk t c) (hknows : KnowsLogin t c) (hfree : HandleFree t lbl)
    (honce : LoginOnce t lbl) (hstep : server.Step c lbl c') :
    EntryOk (t ++ [lbl]) c' := by
  intro u sock hentry
  have hold : c.shared.userSockets u = some sock →
      ∃ i, Owns (t ++ [lbl]) c' u sock i := by
    intro hentry'
    obtain ⟨i, howns⟩ := h u sock hentry'
    exact ⟨i, howns.step hsockets hknows hfree honce hstep hentry⟩
  cases hstep with
  | start => exact hold hentry
  | finish => exact hold hentry
  | call j self job o k hbusy =>
      cases o with
      | registerSocket uid sock' =>
          change Function.update c.shared.userSockets uid (some sock') u =
            some sock at hentry
          by_cases hu : u = uid
          · have hcall := (hkeeps.busy j self job _ hbusy).1
            obtain ⟨line, rfl, -, rfl⟩ := line_of_registerSocket hcall
            obtain rfl := hu
            rw [Function.update_self] at hentry
            obtain rfl := Option.some.inj hentry
            refine ⟨j, ?_, ?_, ?_⟩
            · rw [opened_snoc]
              exact hsockets.busy j self _ _ hbusy
            · rw [loggedIn_snoc]
              exact loginStep_call _ j self (.line line) (.registerSocket u self.sock) ()
            · intro self' p hi
              simp at hi
          · rw [Function.update_of_ne hu] at hentry
            exact hold hentry
      | unregisterSocket uid sock' => exact hold (unregisterSocket_le hentry)
      | _ =>
          refine hold ((congrFun (exec_userSockets ?_ ?_ c.shared) u).symm.trans hentry)
          · rintro _ _ ⟨⟩
          · rintro _ _ ⟨⟩

/-! ## The socket looked up -/

/-- What every step keeps. -/
structure PushOk (s : Push ι) : Prop where
  keeps : KeepsJobs s.threads
  sockets : SocketsOk s.trace s.threads
  knows : KnowsLogin s.trace s.threads
  entry : EntryOk s.trace s.threads
  own : s.OwnUser

variable {s s' : Push ι} {a : PushAction ι}

theorem pushOk_start (db : AlertDB) (marketData : Bool) (clock : ℕ → LocalTime)
    (memory : ι → Session) : PushOk (.start db marketData clock memory) where
  keeps := System.keeps_idleAt trivial
  sockets := socketsOk_idleAt _ memory
  knows := knowsLogin_idleAt _ memory
  entry _ _ h := by cases h
  own _ _ h := by
    obtain ⟨sock, hhand, -⟩ := h
    cases hhand

/-- A lookup takes the handle of an open session of the user. -/
theorem PushOk.own_lookUp (h : PushOk s) (task : NotifyTask) : Push.OwnUser { s with
    hand := (s.threads.shared.userSockets task.userId).map fun sock =>
      (task, sock) } := by
  rintro task' i ⟨sock, hhand, hopen⟩
  obtain ⟨sock', hentry, heq⟩ := Option.map_eq_some_iff.mp hhand
  obtain ⟨rfl, rfl⟩ := Prod.mk.inj heq
  obtain ⟨j, howns⟩ := h.entry task.userId sock' hentry
  obtain rfl := h.sockets.distinct i j sock' hopen howns.isOpen
  exact howns.login

/-- The connection open under the handle was open under it before the step, unless it is a
new one. -/
theorem open_before {handle : ι → Option Socket} {i : ι} {sock : Socket}
    (hnew : ¬ (lbl.job = .connect sock ∧ lbl.kind = .start))
    (h : openStep handle lbl i = some sock) : handle i = some sock := by
  rcases openStep_cases handle lbl with heq | ⟨sock', hjob, hkind, heq⟩ | ⟨-, -, heq⟩
  · rwa [heq] at h
  · rw [heq] at h
    by_cases hi : i = lbl.thread
    · rw [hi, Function.update_self] at h
      exact absurd ⟨Option.some.inj h ▸ hjob, hkind⟩ hnew
    · rwa [Function.update_of_ne hi] at h
  · rw [heq] at h
    by_cases hi : i = lbl.thread
    · rw [hi, Function.update_self] at h
      cases h
    · rwa [Function.update_of_ne hi] at h

/-- The handle in the worker's hand stays that of a session of the user. -/
theorem Push.OwnUser.server (h : s.OwnUser) (hfree : HandleFree s.trace lbl)
    (honce : LoginOnce s.trace lbl)
    (hnew : ∀ sock, s.hand.map Prod.snd = some sock →
      ¬ (lbl.job = .connect sock ∧ lbl.kind = .start)) :
    Push.OwnUser { s with threads := c', trace := s.trace ++ [lbl] } := by
  rintro task i ⟨sock, hhand, hopen⟩
  change s.hand = some (task, sock) at hhand
  change opened (s.trace ++ [lbl]) i = some sock at hopen
  change loggedIn (s.trace ++ [lbl]) i = some task.userId
  rw [opened_snoc] at hopen
  rw [loggedIn_snoc]
  have hbefore := open_before (hnew sock (by rw [hhand]; rfl)) hopen
  exact login_kept hfree honce (hbefore ▸ rfl) (h task i ⟨sock, hhand, hbefore⟩)

theorem PushOk.step (h : PushOk s) (hstep : PushStep s a s') (horderly : Orderly s a)
    (hrecycled : NotRecycled s a) : PushOk s' := by
  cases hstep with
  | @server choice lbl c hnext =>
      have hserver := System.step_of_next server hnext
      obtain ⟨hfree, honce⟩ := horderly _ hnext
      refine ⟨h.keeps.step server_contract hserver, h.sockets.step h.keeps hfree hserver,
        h.knows.step h.keeps hserver,
        h.entry.step h.keeps h.sockets h.knows hfree honce hserver,
        h.own.server hfree honce ?_⟩
      rintro sock hhand ⟨hjob, hkind⟩
      obtain rfl := System.choice_of_start server hnext hkind
      rw [hjob] at hrecycled
      exact hrecycled hhand
  | @lookUp k task htask =>
      exact ⟨h.keeps, h.sockets, h.knows, h.entry, h.own_lookUp task⟩
  | write =>
      refine ⟨h.keeps, h.sockets, h.knows, h.entry, ?_⟩
      rintro _ _ ⟨_, hhand, -⟩
      cases hhand

/-- A new connection that is given the handle has not logged in, and the task would be
written to it. -/
theorem not_ownUser_of_recycled (hnext : (pushes ι).next s a = some s')
    (hrecycled : ¬ NotRecycled s a) : ¬ s'.OwnUser := by
  intro hown
  cases step_of_pushes hnext with
  | @server choice lbl c hserver =>
      unfold NotRecycled at hrecycled
      split at hrecycled
      · rename_i i sock heq
        obtain rfl := PushAction.server.inj heq
        obtain ⟨⟨task, sock⟩, hhand, rfl⟩ :=
          Option.map_eq_some_iff.mp (not_not.mp hrecycled)
        obtain ⟨self, rfl⟩ := System.label_of_next_start server hserver
        have hopen :
            opened (s.trace ++ [⟨i, self, .connect sock, .start⟩]) i = some sock := by
          rw [opened_snoc]
          exact Function.update_self ..
        have hlogin := hown task i ⟨sock, hhand, hopen⟩
        rw [loggedIn_snoc] at hlogin
        change Function.update (loggedIn s.trace) i none i = some task.userId at hlogin
        rw [Function.update_self] at hlogin
        cases hlogin
      · exact hrecycled trivial
  | lookUp => exact hrecycled trivial
  | write => exact hrecycled trivial

variable {t : List (PushAction ι)}

/-- While no new connection is given the handle that the worker has looked up, a task is
written to an open session of its user. -/
theorem ownUser_of_run (db : AlertDB) (marketData : Bool) (clock : ℕ → LocalTime)
    (memory : ι → Session)
    (h : (pushes ι).Run (fun _ s a => Orderly s a ∧ NotRecycled s a)
      (.start db marketData clock memory) t s) : s.OwnUser := by
  refine PushOk.own ?_
  induction h with
  | nil => exact pushOk_start db marketData clock memory
  | snoc _ hnext hok ih => exact ih.step (step_of_pushes hnext) hok.1 hok.2

end

/-- Ann's alert fires on a tick of thread 1. -/
def annAlertFires : List (Choice (Fin 2) Job) :=
  annAddsAlert ++ Choice.start 1 (Job.tick (cstr (ascii "rb2510")) 3600) ::
    List.replicate 9 (Choice.step 1)

/-- Ann's connection is closed. The next one gets its handle, and bob logs in on it. -/
def bobOnAnnsHandle : List (Choice (Fin 2) Job) :=
  Choice.start 0 Job.disconnect :: List.replicate 2 (Choice.step 0) ++
  [Choice.start 0 (Job.connect 7), Choice.step 0] ++
  Choice.start 0 (Job.line (ascii "REGISTER bob pw c@d")) :: List.replicate 2
    (Choice.step 0) ++
  Choice.start 0 (Job.line (ascii "LOGIN bob pw")) :: List.replicate 3 (Choice.step 0)

/-- The worker looks up the socket for ann's alert. -/
def annLookedUp : List (PushAction (Fin 2)) := annAlertFires.map .server ++ [.lookUp 0]

/-- A server on an empty database, and its worker. -/
def newPush : Push (Fin 2) :=
  .start .created false (fun _ => ⟨2025, 6, 0, 9, 30, 0⟩) fun _ => .new 0

/-- What the worker has in hand, and the connection and the user of thread 0. -/
def Push.seen (s : Push (Fin 2)) : Option (ℤ × Socket) × Option Socket × Option ℤ :=
  (s.hand.map fun out => (out.1.userId, out.2), opened s.trace 0, loggedIn s.trace 0)

theorem Push.writesTo_of_seen {s : Push (Fin 2)} {u : ℤ} {sock : Socket}
    {login : Option ℤ} (h : s.seen = (some (u, sock), some sock, login)) :
    ∃ task, task.userId = u ∧ s.WritesTo task 0 ∧ loggedIn s.trace 0 = login := by
  obtain ⟨hmap, hconn⟩ := Prod.mk.inj h
  obtain ⟨hopen, hlogin⟩ := Prod.mk.inj hconn
  obtain ⟨⟨task, sock'⟩, hhand, heq⟩ := Option.map_eq_some_iff.mp hmap
  obtain ⟨huser, rfl⟩ := Prod.mk.inj heq
  exact ⟨task, huser, ⟨sock', hhand, hopen⟩, hlogin⟩

set_option maxRecDepth 10000 in
/-- Ann's alert is written to her own connection. -/
theorem alert_of_ann_to_ann :
    ∃ t s, (pushes (Fin 2)).Run (fun _ s a => Orderly s a ∧ NotRecycled s a) newPush t s ∧
      ∃ task, s.WritesTo task 0 ∧ loggedIn s.trace 0 = some task.userId := by
  have hstate : ((pushes (Fin 2)).followIf
      (fun _ s a => decide (Orderly s a ∧ NotRecycled s a)) [] newPush annLookedUp).map
        Push.seen = some (some (1, 7), some 7, some 1) := by
    decide +kernel
  obtain ⟨s, hfollow, hseen⟩ := Option.map_eq_some_iff.mp hstate
  have hrun := (Machine.Run.followIf_append .nil hfollow).mono
    fun _ _ _ hallowed => of_decide_eq_true hallowed
  obtain ⟨task, -, hwrites, -⟩ := Push.writesTo_of_seen hseen
  exact ⟨_, s, hrun, task, hwrites, ownUser_of_run _ _ _ _ hrun task 0 hwrites⟩

set_option maxRecDepth 10000 in
/-- Ann's alert is written to bob's connection. -/
theorem alert_of_ann_to_bob :
    ¬ ∀ t s, (pushes (Fin 2)).Run (fun _ s a => Orderly s a) newPush t s → s.OwnUser := by
  intro hown
  have hstate : ((pushes (Fin 2)).followIf (fun _ s a => decide (Orderly s a)) [] newPush
      (annLookedUp ++ bobOnAnnsHandle.map .server)).map Push.seen =
        some (some (1, 7), some 7, some 2) := by
    decide +kernel
  obtain ⟨s, hfollow, hseen⟩ := Option.map_eq_some_iff.mp hstate
  have hrun := (Machine.Run.followIf_append .nil hfollow).mono
    fun _ _ _ hallowed => of_decide_eq_true hallowed
  obtain ⟨task, huser, hwrites, hlogin⟩ := Push.writesTo_of_seen hseen
  have hbob := hlogin.symm.trans (hown _ s hrun task 0 hwrites)
  rw [huser] at hbob
  exact absurd hbob (by decide)

end CloudAlert
