import CloudAlert.Concurrent.Threads
import CloudAlert.Server.Accounts
import CloudAlert.Session.Commands

/-!
# Serial order

Every run of the server is equivalent to a serial one. `commitOf` says at which step a
command happens: at its one table write, or at the last read that decides its reply,
or at its start if it makes no call. A `TriggerAlert` happens where it is called. The
serial server executes these events whole, in the order of their steps (`Serialises`).

The simulation is thread by thread (`ThreadRel`): before its commit step a thread is
about to do what the serial server will do, and after it the thread is settled.
SET_EMAIL checks the password in a step before its write; the check still holds when
the write comes, since no call changes a non-empty password.
-/

namespace CloudAlert

open Program

/-! ## The serial server -/

/-- The commands whose replies are compared: all but GET_PRICES. -/
def Compared (line : Bytes) : Prop :=
  commandWord line ≠ ascii "GET_PRICE" ∧ commandWord line ≠ ascii "GET_PRICES"

instance (line : Bytes) : Decidable (Compared line) :=
  inferInstanceAs (Decidable (_ ∧ _))

/-- What the serial server executes whole. -/
inductive SerialEvent (ι : Type*) where
  | connect (i : ι) (sock : Socket)
  | disconnect (i : ι)
  | command (i : ι) (line : Bytes) (now : LocalTime)
  | trigger (rec : AlertRecord) (triggeredAt : Text)

/-- The serial server: the world, the session of each thread and its replies so far. -/
structure SerialState (ι : Type*) where
  world : World
  session : ι → Session
  replies : ι → List (Bytes × Reply)

/-- The world in which the clock stands at `now`. -/
def World.atTime (w : World) (now : LocalTime) : World := { w with clock := fun _ => now }

section Serial

variable {ι : Type*} [DecidableEq ι]

/-- One event. -/
def SerialState.serve (s : SerialState ι) : SerialEvent ι → SerialState ι
  | .connect i sock => { s with session := Function.update s.session i (.new sock) }
  | .disconnect i => { s with
      world := (run exec (endSession (s.session i)) s.world).2
      session := Function.update s.session i (.new (s.session i).sock) }
  | .command i line now =>
      let out := run exec (dispatch (s.session i) line) (s.world.atTime now)
      { world := out.2
        session := Function.update s.session i out.1.1
        replies := Function.update s.replies i (s.replies i ++ [(line, out.1.2)]) }
  | .trigger rec ts => { s with world := (exec (.triggerAlert rec ts) s.world).2 }

/-- The serial server after an event, if there is one. -/
def SerialState.advance (s : SerialState ι) : Option (SerialEvent ι) → SerialState ι
  | none => s
  | some e => s.serve e

/-! ## Commit steps -/

/-- The command does nothing but reply. -/
def onlyReplies (p : Handler) : Bool :=
  match p with
  | .ret _ => true
  | .call _ _ => false

/-- The call is the table write of the command, or the read that decides its reply. -/
def Commits (self : Session) (line : Bytes) : (c : Call) → c.Ans → Prop
  | .verifyLogin _ _, uid => commandWord line = ascii "SET_EMAIL" → uid ≠ self.userId
  | .setEmail _ _, _ => True
  | .registerUser _ _ _, _ | .getEmail _, _ | .queryAlerts _ _, _ => True
  | .addPriceAlert _ _ _ _, _ | .addTimeAlert _ _ _, _ | .deleteAlert _ _, _ => True
  | .modifyPriceAlert _ _ _ _ _, _ | .modifyTimeAlert _ _ _ _, _ => True
  | _, _ => False

instance (self : Session) (line : Bytes) (c : Call) (r : c.Ans) :
    Decidable (Commits self line c r) := by
  cases c <;> unfold Commits <;> infer_instance

/-- The event that happens in a step of the server in the state `c`. -/
def commitOf (c : Threads ι) (lbl : ServerStep ι) : Option (SerialEvent ι) :=
  match lbl.kind with
  | .start =>
      match lbl.job with
      | .connect sock => some (.connect lbl.thread sock)
      | .disconnect => some (.disconnect lbl.thread)
      | .line line =>
          if Compared line ∧ onlyReplies (dispatch lbl.memory line) then
            some (.command lbl.thread line (c.shared.clock 0))
          else none
      | _ => none
  | .call (.triggerAlert rec ts) _ => some (.trigger rec ts)
  | .call o r =>
      match lbl.job with
      | .line line =>
          if Compared line ∧ Commits lbl.memory line o r then
            some (.command lbl.thread line (c.shared.clock 0))
          else none
      | _ => none
  | .finish _ => none

/-- The events of a run, in the order of their steps. -/
inductive Serialises (c₀ : Threads ι) :
    List (ServerStep ι) → Threads ι → List (SerialEvent ι) → Prop where
  | nil : Serialises c₀ [] c₀ []
  | snoc {t c es a lbl c'} (h : Serialises c₀ t c es)
      (next : server.next c a = some (lbl, c')) :
      Serialises c₀ (t ++ [lbl]) c' (es ++ (commitOf c lbl).toList)

/-- The reply to a job that is compared. -/
def jobReply : Job → Reply → List (Bytes × Reply)
  | .line line, b => if Compared line then [(line, b)] else []
  | _, _ => []

/-- The replies a thread has sent. -/
def repliesOf (i : ι) (t : List (ServerStep ι)) : List (Bytes × Reply) :=
  t.flatMap fun lbl =>
    match lbl.kind with
    | .finish b => if lbl.thread = i then jobReply lbl.job b else []
    | _ => []

/-- The serial server agrees with the threads: the tables are the same, the replies sent
so far are those of the serial server, and a thread that is idle has sent all of them. -/
structure Agrees (s : SerialState ι) (t : List (ServerStep ι)) (c : Threads ι) :
    Prop where
  tables : s.world.db = c.shared.db
  replies : ∀ i, repliesOf i t <+: s.replies i
  idle : ∀ i self, c.thread i = .idle self → s.session i = self ∧
  s.replies i = repliesOf i t

/-! ## Calls and their commits -/

/-- What a deciding call does depends on the tables and the time only. -/
theorem deciding_exec {line : Bytes} {o : Call} (h : DecidingCall line o) (w w' : World)
    (hdb : w'.db = w.db) (hclock : w'.clock 0 = w.clock 0) :
    (exec o w').1 = (exec o w).1 ∧ (exec o w').2.db = (exec o w).2.db := by
  cases o <;> first
    | exact h.elim
    | simp only [exec, execWith, World.store, World.tickClock, hdb, hclock, and_self]

theorem commits_of_deciding {self : Session} {line : Bytes} {o : Call}
    (h : DecidingCall line o) (r : o.Ans) : Commits self line o r := by
  cases o with
  | verifyLogin => exact fun hword => absurd (h.symm.trans hword) (by decide)
  | _ => trivial

theorem not_commits_of_silent {self : Session} {line : Bytes} {o : Call}
    (h : SilentCall o) (r : o.Ans) : ¬ Commits self line o r := by
  cases o with
  | getPendingContracts | getPendingPriceAlerts | swapCache => exact id
  | registerSocket | unregisterSocket | subscribe => exact id
  | _ => exact h.elim

/-- The calls of the threads whose jobs are not compared commands. -/
def EngineCall : Call → Prop
  | .triggerAlert _ _ => True
  | o => ¬ o.writesAlerts ∧ ¬ o.writesUsers

variable {c c' : Threads ι} {lbl : ServerStep ι} {i : ι} {self : Session} {line : Bytes}

omit [DecidableEq ι] in
theorem commitOf_command (hline : Compared line) {o : Call} {r : o.Ans}
    (h : Commits self line o r) :
    commitOf c ⟨i, self, .line line, .call o r⟩ =
      some (.command i line (c.shared.clock 0)) := by
  cases o with
  | triggerAlert => exact h.elim
  | _ => exact if_pos ⟨hline, h⟩

omit [DecidableEq ι] in
theorem commitOf_quiet {job : Job} {o : Call} {r : o.Ans}
    (htrigger : ∀ rec ts, o ≠ .triggerAlert rec ts)
    (h : ∀ line, job = .line line → Compared line → ¬ Commits self line o r) :
    commitOf c ⟨i, self, job, .call o r⟩ = none := by
  cases o with
  | triggerAlert rec ts => exact absurd rfl (htrigger rec ts)
  | _ =>
      cases job with
      | line line => exact if_neg fun hboth => h line rfl hboth.1 hboth.2
      | _ => rfl

/-! ## The simulation -/

/-- A busy thread that has not committed. -/
inductive Waiting (db : AlertDB) (self : Session) : Job → Handler → Prop where
  /-- The command is about to make its first call. -/
  | command {line : Bytes} {o : Call} {k : o.Ans → Handler} (hline : Compared line)
      (hcode : dispatch self line = .call o k) : Waiting db self (.line line) (.call o k)
  /-- SET_EMAIL has checked the password, and the check still holds. -/
  | checked {line p e : Bytes} {k : ℤ → Handler} {no : Session × Reply}
      {k' : Bool → Handler} (hline : Compared line)
      (hcode : dispatch self line = .call (.verifyLogin self.username p) k)
      (hself : 0 ≤ self.userId) (hp : p ≠ [])
      (hno : ∀ uid, uid ≠ self.userId → k uid = .ret no)
      (hyes : k self.userId = .call (.setEmail self.userId e) k')
      (hk : ∀ ok, Decided (k' ok))
      (hverified : db.verifyLogin .none self.username p = self.userId) :
      Waiting db self (.line line) (.call (.setEmail self.userId e) k')
  /-- The job is none that is compared. -/
  | engine {job : Job} {p : Handler} (hline : ∀ line, job = .line line → ¬ Compared line)
      (hp : p.Respects EngineCall Answer fun out =>
        out.1 = self ∧ jobReply job out.2 = []) : Waiting db self job p

/-- How a thread and the serial server are related, `sent` being the replies of the
thread so far. -/
inductive ThreadRel (s : SerialState ι) (sent : List (Bytes × Reply))
    (db : AlertDB) (i : ι) : Thread Call Call.Ans Session Job Reply → Prop where
  | idle {self : Session} (hsession : s.session i = self) (hsent : s.replies i = sent) :
      ThreadRel s sent db i (.idle self)
  | waiting {self : Session} {job : Job} {p : Handler} (hsession : s.session i = self)
      (hsent : s.replies i = sent) (hp : Waiting db self job p) :
      ThreadRel s sent db i (.busy self job p)
  | settled {self self' : Session} {job : Job} {p : Handler} {b : Reply}
      (hp : p.Settled SilentCall (self', b)) (hsession : s.session i = self')
      (hsent : s.replies i = sent ++ jobReply job b) :
      ThreadRel s sent db i (.busy self job p)

/-- The simulation relation. -/
structure Simulates (s : SerialState ι) (t : List (ServerStep ι)) (c : Threads ι) :
    Prop where
  tables : s.world.db = c.shared.db
  threads : ∀ i, ThreadRel s (repliesOf i t) c.shared.db i (c.thread i)

theorem Waiting.exec {w : World} {job : Job} {p : Handler} (h : Waiting w.db self job p)
    (o : Call) : Waiting (CloudAlert.exec o w).2.db self job p := by
  cases h with
  | command hline hcode => exact .command hline hcode
  | checked hline hcode hself hp hno hyes hk hverified =>
      exact .checked hline hcode hself hp hno hyes hk
        (verifyLogin_after o hp hself hverified)
  | engine hline hp => exact .engine hline hp

omit [DecidableEq ι] in
theorem ThreadRel.other {s s' : SerialState ι} {sent : List (Bytes × Reply)}
    {db db' : AlertDB}
    {th : Thread Call Call.Ans Session Job Reply} (h : ThreadRel s sent db i th)
    (hsession' : s'.session i = s.session i) (hreplies' : s'.replies i = s.replies i)
    (hwaiting : ∀ self job p, Waiting db self job p → Waiting db' self job p) :
    ThreadRel s' sent db' i th := by
  cases h with
  | idle hsession hsent => exact .idle (hsession'.trans hsession) (hreplies'.trans hsent)
  | waiting hsession hsent hp =>
      exact .waiting (hsession'.trans hsession) (hreplies'.trans hsent)
        (hwaiting _ _ _ hp)
  | settled hp hsession hsent =>
      exact .settled hp (hsession'.trans hsession) (hreplies'.trans hsent)

theorem repliesOf_concat (j : ι) (t : List (ServerStep ι)) (lbl : ServerStep ι)
    (h : j ≠ lbl.thread ∨ ∀ b, lbl.kind ≠ .finish b) :
    repliesOf j (t ++ [lbl]) = repliesOf j t := by
  obtain ⟨i, self, job, kind⟩ := lbl
  rw [repliesOf, List.flatMap_append, List.flatMap_singleton]
  cases kind with
  | finish b =>
      have hj : i ≠ j := h.elim Ne.symm fun h => absurd rfl (h b)
      simp [hj, repliesOf]
  | _ => exact List.append_nil _

theorem repliesOf_finish (i : ι) (t : List (ServerStep ι)) (self : Session) (job : Job)
    (b : Reply) :
    repliesOf i (t ++ [⟨i, self, job, .finish b⟩]) = repliesOf i t ++ jobReply job b := by
  rw [repliesOf, List.flatMap_append, List.flatMap_singleton]
  simp [repliesOf]

section Step

variable {s s' : SerialState ι} {t : List (ServerStep ι)}

theorem Simulates.of_thread (h : Simulates s t c) (hstep : server.Step c lbl c')
    (htables : s'.world.db = c'.shared.db)
    (hsame : ∀ j, j ≠ lbl.thread → s'.session j = s.session j ∧
      s'.replies j = s.replies j)
    {th : Thread Call Call.Ans Session Job Reply} (hth : c'.thread lbl.thread = th)
    (hown : ThreadRel s' (repliesOf lbl.thread (t ++ [lbl])) c'.shared.db lbl.thread th) :
    Simulates s' (t ++ [lbl]) c' := by
  have hwaiting : ∀ self job p, Waiting c.shared.db self job p →
      Waiting c'.shared.db self job p := by
    intro self job p hp
    cases hstep with
    | start => exact hp
    | call i self job o k hbusy => exact hp.exec o
    | finish => exact hp
  refine ⟨htables, fun j => ?_⟩
  by_cases hj : j = lbl.thread
  · subst hj
    exact hth ▸ hown
  · rw [hstep.thread_of_ne hj, repliesOf_concat j t lbl (.inl hj)]
    exact (h.threads j).other (hsame j hj).1 (hsame j hj).2 hwaiting

/-- The jobs that are not compared touch the tables by `TriggerAlert` only, and leave
the session as it is. -/
theorem engine_code {job : Job} (hline : ∀ line, job = .line line → ¬ Compared line)
    (hconnect : ∀ sock, job ≠ .connect sock) (hdisconnect : job ≠ .disconnect)
    (self : Session) :
    (serverCode job self).Respects EngineCall Answer fun out =>
      out.1 = self ∧ jobReply job out.2 = [] := by
  have hcode :
      (serverCode job self).Respects (ServerCall (fun _ _ => True) job self) Answer
      (ServerResult job self) := server_contract.code job self
  refine hcode.mono (fun o ho => ?_) (fun _ _ _ h => h) fun out hout => ?_
  · cases job with
    | connect sock => exact absurd rfl (hconnect sock)
    | disconnect => exact absurd rfl hdisconnect
    | line line =>
        have hword := hline line rfl
        simp only [Compared, not_and_or, not_not] at hword
        cases o with
        | triggerAlert => trivial
        | registerUser | setEmail | addPriceAlert | addTimeAlert | deleteAlert
        | modifyPriceAlert | modifyTimeAlert =>
            have hcommand := ho.1
            rcases hword with hword | hword
            · exact absurd (hword.symm.trans hcommand) (by decide)
            · exact absurd (hword.symm.trans hcommand) (by decide)
        | _ => exact ⟨id, id⟩
    | _ => cases o <;> first | trivial | exact ⟨id, id⟩
  · cases job with
    | connect sock => exact absurd rfl (hconnect sock)
    | disconnect => exact absurd rfl hdisconnect
    | line line =>
        have hword := hline line rfl
        refine ⟨hout.2.resolve_right fun hlogin => ?_, if_neg hword⟩
        refine hword ⟨?_, ?_⟩
        · rw [hlogin]
          decide
        · rw [hlogin]
          decide
    | _ => exact ⟨hout, rfl⟩

theorem Simulates.quiet (h : Simulates s t c) (hstep : server.Step c lbl c')
    (hcommit : commitOf c lbl = none) (hkind : ∀ b, lbl.kind ≠ .finish b)
    (hdb : c'.shared.db = c.shared.db) {th : Thread Call Call.Ans Session Job Reply}
    (hth : c'.thread lbl.thread = th)
    (hown : ThreadRel s (repliesOf lbl.thread t) c.shared.db lbl.thread th) :
    Simulates (s.advance (commitOf c lbl)) (t ++ [lbl]) c' := by
  rw [hcommit]
  refine h.of_thread hstep (h.tables.trans hdb.symm) (fun _ _ => ⟨rfl, rfl⟩) hth ?_
  rw [repliesOf_concat lbl.thread t lbl (.inr hkind)]
  exact hown.other rfl rfl fun _ _ _ hp => hdb ▸ hp

/-- A step at which a command happens. -/
theorem Simulates.commit (h : Simulates s t c) {kind : StepKind Call Call.Ans Reply}
    (hstep : server.Step c ⟨i, self, .line line, kind⟩ c') (hkind : ∀ b, kind ≠ .finish b)
    (hline : Compared line) (hsession : s.session i = self)
    (hsent : s.replies i = repliesOf i t) {p : Handler}
    (hth : c'.thread i = .busy self (.line line) p) {out : Session × Reply}
    (hp : p.Settled SilentCall out) {now : LocalTime}
    (hresult : (run exec (dispatch self line) (s.world.atTime now)).1 = out)
    (htables : (run exec (dispatch self line) (s.world.atTime now)).2.db = c'.shared.db) :
    Simulates (s.serve (.command i line now))
      (t ++ [⟨i, self, .line line, kind⟩]) c' := by
  subst hsession hresult
  refine h.of_thread hstep htables (fun j hj => ?_) hth (.settled hp ?_ ?_)
  · exact ⟨Function.update_of_ne hj _ _, Function.update_of_ne hj _ _⟩
  · exact Function.update_self ..
  · rw [repliesOf_concat i t _ (.inr hkind), jobReply, if_pos hline, ← hsent]
    exact Function.update_self ..

theorem Simulates.renew (h : Simulates s t c) {job : Job}
    (hstep : server.Step c ⟨i, self, job, .start⟩ c') (hjob : ∀ b, jobReply job b = [])
    (hsent : s.replies i = repliesOf i t) {w : World} (hw : w.db = s.world.db)
    {new : Session} {b : Reply} {p : Handler} (hth : c'.thread i = .busy self job p)
    (hp : p.Settled SilentCall (new, b)) :
    Simulates { s with world := w, session := Function.update s.session i new }
      (t ++ [⟨i, self, job, .start⟩]) c' := by
  have hshared : c'.shared = c.shared := hstep.shared_of_not_call nofun
  refine h.of_thread hstep ?_ (fun j hj => ?_) hth
    (.settled hp (Function.update_self ..) ?_)
  · rw [hshared]
    exact hw.trans h.tables
  · exact ⟨Function.update_of_ne hj _ _, rfl⟩
  · rw [repliesOf_concat i t ⟨i, self, job, .start⟩ (.inr nofun), hjob, List.append_nil]
    exact hsent

theorem endSession_silent (self : Session) :
    (endSession self).Respects SilentCall (fun _ _ => True) fun _ => True := by
  unfold endSession
  split
  · exact ⟨trivial, fun _ _ => trivial⟩
  · trivial

/-- A compared command begins. If it calls nothing, it happens now. -/
theorem Simulates.startCommand (h : Simulates s t c) (hidle : c.thread i = .idle self)
    (hsession : s.session i = self) (hsent : s.replies i = repliesOf i t)
    (hline : Compared line) :
    Simulates (s.advance (commitOf c ⟨i, self, .line line, .start⟩))
      (t ++ [⟨i, self, .line line, .start⟩])
      ⟨c.shared, Function.update c.thread i
        (.busy self (.line line) (dispatch self line))⟩ := by
  have hstep := System.Step.start (S := server) i self (.line line) hidle
  cases hcode : dispatch self line with
  | ret out =>
      have hcommit : commitOf c ⟨i, self, .line line, .start⟩ =
          some (.command i line (c.shared.clock 0)) :=
        if_pos ⟨hline, by rw [hcode]; rfl⟩
      rw [hcommit]
      rw [show server.code (.line line) self = .ret out from hcode] at hstep
      refine h.commit hstep nofun hline hsession hsent (Function.update_self ..)
        settled_ret ?_ ?_
      · rw [hcode]
        rfl
      · rw [hcode]
        exact h.tables
  | call o k =>
      have hnone : commitOf c ⟨i, self, .line line, .start⟩ = none := by
        refine if_neg fun hboth => ?_
        have hreplies := hboth.2
        simp [hcode, onlyReplies] at hreplies
      rw [show server.code (.line line) self = .call o k from hcode] at hstep
      exact h.quiet hstep hnone nofun rfl (Function.update_self ..)
        (.waiting hsession hsent (.command hline hcode))

theorem Simulates.start (h : Simulates s t c) {job : Job}
    (hidle : c.thread i = .idle self) :
    Simulates (s.advance (commitOf c ⟨i, self, job, .start⟩))
      (t ++ [⟨i, self, job, .start⟩])
      ⟨c.shared, Function.update c.thread i (.busy self job (serverCode job self))⟩ := by
  have hstep := System.Step.start (S := server) i self job hidle
  have hrel := h.threads i
  rw [hidle] at hrel
  cases hrel with
  | idle hsession hsent =>
      have hengine : commitOf c ⟨i, self, job, .start⟩ = none →
          (∀ line, job = .line line → ¬ Compared line) →
          (∀ sock, job ≠ .connect sock) → job ≠ .disconnect →
          Simulates (s.advance (commitOf c ⟨i, self, job, .start⟩))
            (t ++ [⟨i, self, job, .start⟩])
            ⟨c.shared, Function.update c.thread i
              (.busy self job (serverCode job self))⟩ :=
        fun hnone hline hconnect hdisconnect =>
          h.quiet hstep hnone nofun rfl (Function.update_self ..)
            (.waiting hsession hsent
              (.engine hline (engine_code hline hconnect hdisconnect self)))
      cases job with
      | connect sock =>
          exact h.renew hstep (fun _ => rfl) hsent rfl
            (Function.update_self ..) settled_ret
      | disconnect =>
          subst hsession
          have hworld : (run exec (endSession (s.session i)) s.world).2.db = s.world.db :=
            ((endSession_silent _).run (fun w => w.db = s.world.db)
              (fun o w ho hw => ⟨(silent_db ho w).trans hw, trivial⟩) rfl).1
          exact h.renew hstep (fun _ => rfl) hsent hworld (Function.update_self ..)
            (Settled.bind (endSession_silent _) fun _ => settled_ret)
      | line line =>
          by_cases hline : Compared line
          · exact h.startCommand hidle hsession hsent hline
          · exact hengine (if_neg fun hboth => hline hboth.1)
              (fun _ heq => Job.line.inj heq ▸ hline) nofun nofun
      | _ => exact hengine rfl nofun nofun nofun

/-- The check of SET_EMAIL. The command happens now if the check fails. -/
theorem Simulates.passwordCheck (h : Simulates s t c) {p e : Bytes} {k : ℤ → Handler}
    {no : Session × Reply} {k' : Bool → Handler}
    (hcall : c.thread i = .busy self (.line line)
      (.call (.verifyLogin self.username p) k))
    (hsession : s.session i = self) (hsent : s.replies i = repliesOf i t)
    (hline : Compared line) (hword : commandWord line = ascii "SET_EMAIL")
    (hcode : dispatch self line = .call (.verifyLogin self.username p) k)
    (hself : 0 ≤ self.userId) (hp : p ≠ [])
    (hno : ∀ uid, uid ≠ self.userId → k uid = .ret no)
    (hyes : k self.userId = .call (.setEmail self.userId e) k')
    (hk : ∀ ok, Decided (k' ok)) :
    Simulates (s.advance (commitOf c ⟨i, self, .line line,
        .call (.verifyLogin self.username p)
          (exec (.verifyLogin self.username p) c.shared).1⟩))
      (t ++ [⟨i, self, .line line,
        .call (.verifyLogin self.username p)
          (exec (.verifyLogin self.username p) c.shared).1⟩])
      ⟨c.shared, Function.update c.thread i
        (.busy self (.line line) (k (exec (.verifyLogin self.username p) c.shared).1))⟩
        := by
  have hstep := System.Step.call (S := server) i self (.line line)
    (.verifyLogin self.username p) k hcall
  by_cases hverified : c.shared.db.verifyLogin .none self.username p = self.userId
  · refine h.quiet hstep (commitOf_quiet nofun ?_) nofun rfl (Function.update_self ..) ?_
    · rintro line' hjob - hcommits
      obtain rfl := Job.line.inj hjob
      exact hcommits hword hverified
    · change ThreadRel s _ _ i (.busy self (.line line)
        (k (c.shared.db.verifyLogin .none self.username p)))
      rw [hverified, hyes]
      exact .waiting hsession hsent
        (.checked hline hcode hself hp hno hyes hk hverified)
  · have hcommits : Commits self line (.verifyLogin self.username p)
        (exec (.verifyLogin self.username p) c.shared).1 := fun _ => hverified
    rw [commitOf_command hline hcommits]
    have hserial : ¬ (s.world.atTime (c.shared.clock 0)).db.verifyLogin .none
        self.username p = self.userId := by
      change ¬ s.world.db.verifyLogin .none self.username p = self.userId
      rw [h.tables]
      exact hverified
    have hrun : run exec (dispatch self line) (s.world.atTime (c.shared.clock 0)) =
        (no, s.world.atTime (c.shared.clock 0)) := by
      rw [hcode, run_check hno hyes, if_neg hserial]
    have hsettled : (k (exec (.verifyLogin self.username p) c.shared).1).Settled
        SilentCall no := (hno _ hverified).symm ▸ settled_ret
    refine h.commit hstep nofun hline hsession hsent (Function.update_self ..)
      hsettled ?_ ?_
    · rw [hrun]
    · rw [hrun]
      exact h.tables

theorem Simulates.firstCall (h : Simulates s t c) {o : Call} {k : o.Ans → Handler}
    (hcall : c.thread i = .busy self (.line line) (.call o k))
    (hsession : s.session i = self)
    (hsent : s.replies i = repliesOf i t) (hline : Compared line)
    (hcode : dispatch self line = .call o k) :
    Simulates (s.advance (commitOf c ⟨i, self, .line line, .call o (exec o c.shared).1⟩))
      (t ++ [⟨i, self, .line line, .call o (exec o c.shared).1⟩])
      ⟨(exec o c.shared).2,
        Function.update c.thread i
          (.busy self (.line line) (k (exec o c.shared).1))⟩ := by
  have hstep := System.Step.call (S := server) i self (.line line) o k hcall
  have ht := dispatch_transaction self line hline.1 hline.2
  rw [hcode] at ht
  cases ht with
  | call hdecides hk =>
      rw [commitOf_command hline (commits_of_deciding hdecides _)]
      obtain ⟨hanswer, hdb⟩ := deciding_exec hdecides
        c.shared (s.world.atTime (c.shared.clock 0)) h.tables rfl
      obtain ⟨out, hout⟩ := hk (exec o c.shared).1
      have hrun := run_settled hout (exec o (s.world.atTime (c.shared.clock 0))).2
      refine h.commit hstep nofun hline hsession hsent
        (Function.update_self ..) hout ?_ ?_
      · rw [hcode, run_call, hanswer]
        exact hrun.1
      · rw [hcode, run_call, hanswer]
        exact hrun.2.trans hdb
  | check hword hself hp hno hyes hk =>
      exact h.passwordCheck hcall hsession hsent hline hword hcode hself hp hno hyes hk

/-- The write of SET_EMAIL, after its check. -/
theorem Simulates.checkedWrite (h : Simulates s t c) {p e : Bytes} {k : ℤ → Handler}
    {no : Session × Reply} {k' : Bool → Handler}
    (hcall : c.thread i = .busy self (.line line) (.call (.setEmail self.userId e) k'))
    (hsession : s.session i = self) (hsent : s.replies i = repliesOf i t)
    (hline : Compared line)
    (hcode : dispatch self line = .call (.verifyLogin self.username p) k)
    (hno : ∀ uid, uid ≠ self.userId → k uid = .ret no)
    (hyes : k self.userId = .call (.setEmail self.userId e) k')
    (hk : ∀ ok, Decided (k' ok))
    (hverified : c.shared.db.verifyLogin .none self.username p = self.userId) :
    Simulates (s.advance (commitOf c ⟨i, self, .line line,
        .call (.setEmail self.userId e) (exec (.setEmail self.userId e) c.shared).1⟩))
      (t ++ [⟨i, self, .line line,
        .call (.setEmail self.userId e) (exec (.setEmail self.userId e) c.shared).1⟩])
      ⟨(exec (.setEmail self.userId e) c.shared).2, Function.update c.thread i
        (.busy self (.line line) (k' (exec (.setEmail self.userId e) c.shared).1))⟩ := by
  have hstep := System.Step.call (S := server) i self (.line line)
    (.setEmail self.userId e) k' hcall
  have hcommits : Commits self line (.setEmail self.userId e)
      (exec (.setEmail self.userId e) c.shared).1 := trivial
  rw [commitOf_command hline hcommits]
  have hserial :
      (s.world.atTime (c.shared.clock 0)).db.verifyLogin .none self.username p =
      self.userId := by
    change s.world.db.verifyLogin .none self.username p = self.userId
    rw [h.tables]
    exact hverified
  have hset := c.shared.db.setEmail_none self.userId e
  obtain ⟨out, hout⟩ := hk true
  have hrun := run_settled hout { s.world.atTime (c.shared.clock 0) with
    db := s.world.db.updateUser self.userId id fun _ => cstr e }
  have hdispatch : run exec (dispatch self line) (s.world.atTime (c.shared.clock 0)) =
      run exec (k' true) { s.world.atTime (c.shared.clock 0) with
        db := s.world.db.updateUser self.userId id fun _ => cstr e } := by
    rw [hcode, run_check hno hyes, if_pos hserial]
    rfl
  have hsettled :
      (k' (exec (.setEmail self.userId e) c.shared).1).Settled SilentCall out := by
    change (k' (c.shared.db.setEmail .none self.userId e).1).Settled SilentCall out
    rw [hset]
    exact hout
  refine h.commit hstep nofun hline hsession hsent
    (Function.update_self ..) hsettled ?_ ?_
  · rw [hdispatch]
    exact hrun.1
  · rw [hdispatch, hrun.2, h.tables]
    change _ = (c.shared.db.setEmail .none self.userId e).2
    rw [hset]

theorem Simulates.call (h : Simulates s t c) {job : Job} {o : Call} {k : o.Ans → Handler}
    (hcall : c.thread i = .busy self job (.call o k)) :
    Simulates (s.advance (commitOf c ⟨i, self, job, .call o (exec o c.shared).1⟩))
      (t ++ [⟨i, self, job, .call o (exec o c.shared).1⟩])
      ⟨(exec o c.shared).2,
        Function.update c.thread i (.busy self job (k (exec o c.shared).1))⟩ := by
  have hstep := System.Step.call (S := server) i self job o k hcall
  have hrel := h.threads i
  rw [hcall] at hrel
  cases hrel with
  | waiting hsession hsent hp =>
      cases hp with
      | command hline hcode => exact h.firstCall hcall hsession hsent hline hcode
      | checked hline hcode hself hp hno hyes hk hverified =>
          exact h.checkedWrite hcall hsession hsent hline hcode hno hyes hk hverified
      | engine hline hp =>
          have hrest : Waiting c.shared.db self job (k (exec o c.shared).1) :=
            .engine hline (hp.2 _ (answer_exec o c.shared))
          by_cases htrigger : ∃ rec ts, o = .triggerAlert rec ts
          · obtain ⟨rec, ts, rfl⟩ := htrigger
            have htables : (s.serve (.trigger rec ts)).world.db =
                (exec (.triggerAlert rec ts) c.shared).2.db := by
              change (s.world.db.triggerAlert .none rec.id ts).2 =
                (c.shared.db.triggerAlert .none rec.id ts).2
              rw [h.tables]
            refine h.of_thread (.call i self job _ k hcall) htables
              (fun _ _ => ⟨rfl, rfl⟩) (Function.update_self ..) ?_
            rw [repliesOf_concat i t ⟨i, self, job, .call _ _⟩ (.inr nofun)]
            exact .waiting hsession hsent (hrest.exec _)
          · have hquiet : ¬ o.writesAlerts ∧ ¬ o.writesUsers := by
              have ho := hp.1
              cases o with
              | triggerAlert rec ts => exact absurd ⟨rec, ts, rfl⟩ htrigger
              | _ => exact ho
            refine h.quiet hstep (commitOf_quiet ?_ ?_)
              nofun (exec_db_of_not_writes hquiet _)
              (Function.update_self ..) (.waiting hsession hsent hrest)
            · exact fun rec ts heq => htrigger ⟨rec, ts, heq⟩
            · exact fun line hjob hcompared => absurd hcompared (hline line hjob)
  | settled hp hsession hsent =>
      refine h.quiet hstep (commitOf_quiet ?_ ?_) nofun (silent_db hp.1 _)
        (Function.update_self ..) (.settled (hp.2 _ trivial) hsession hsent)
      · rintro rec ts rfl
        exact hp.1
      · exact fun line _ _ => not_commits_of_silent hp.1 _

theorem Simulates.finish (h : Simulates s t c) {job : Job} {self' : Session} {b : Reply}
    (hret : c.thread i = .busy self job (.ret (self', b))) :
    Simulates s (t ++ [⟨i, self, job, .finish b⟩])
      ⟨c.shared, Function.update c.thread i (.idle self')⟩ := by
  have hstep := System.Step.finish (S := server) i self job self' b hret
  have hrel := h.threads i
  rw [hret] at hrel
  refine h.of_thread hstep h.tables (fun _ _ => ⟨rfl, rfl⟩) (Function.update_self ..) ?_
  rw [repliesOf_finish]
  cases hrel with
  | waiting hsession hsent hp =>
      cases hp with
      | engine _ hp =>
          obtain ⟨rfl, hreply⟩ := hp
          refine .idle hsession ?_
          rw [hreply, List.append_nil]
          exact hsent
  | settled hp hsession hsent =>
      obtain ⟨rfl, rfl⟩ := Prod.mk.inj hp
      exact .idle hsession hsent

theorem Simulates.step (h : Simulates s t c) (hstep : server.Step c lbl c') :
    Simulates (s.advance (commitOf c lbl)) (t ++ [lbl]) c' := by
  cases hstep with
  | start i self job hidle => exact h.start hidle
  | call i self job o k hcall => exact h.call hcall
  | finish i self job self' b hret => exact h.finish hret

omit [DecidableEq ι] in
theorem ThreadRel.agrees {s : SerialState ι} {sent : List (Bytes × Reply)} {db : AlertDB}
    {th : Thread Call Call.Ans Session Job Reply} (h : ThreadRel s sent db i th) :
    sent <+: s.replies i ∧ ∀ self, th = .idle self → s.session i = self ∧
    s.replies i = sent := by
  cases h with
  | idle hsession hsent =>
      refine ⟨hsent ▸ List.prefix_rfl, fun self hself => ⟨?_, hsent⟩⟩
      exact hsession.trans (Thread.idle.inj hself)
  | waiting hsession hsent hp => exact ⟨hsent ▸ List.prefix_rfl, nofun⟩
  | settled hp hsession hsent => exact ⟨hsent ▸ List.prefix_append .., nofun⟩

theorem Simulates.agrees (h : Simulates s t c) : Agrees s t c where
  tables := h.tables
  replies i := (h.threads i).agrees.1
  idle i := (h.threads i).agrees.2

end Step

section Runs

variable {w₀ : World} {memory : ι → Session} {t : List (ServerStep ι)}

theorem simulates_idleAt :
    Simulates ⟨w₀, memory, fun _ => []⟩ ([] : List (ServerStep ι))
      (System.idleAt w₀ memory) :=
  ⟨rfl, fun _ => .idle rfl rfl⟩

omit [DecidableEq ι] in
theorem foldl_advance (s : SerialState ι) (es : List (SerialEvent ι))
    (next : Option (SerialEvent ι)) [DecidableEq ι] :
    (es ++ next.toList).foldl SerialState.serve s =
      (es.foldl SerialState.serve s).advance next := by
  cases next with
  | none => exact congrArg _ (List.append_nil es)
  | some e => exact List.foldl_concat ..

theorem simulates_of_serialises {es : List (SerialEvent ι)}
    (h : Serialises (System.idleAt w₀ memory) t c es) :
    Simulates (es.foldl SerialState.serve ⟨w₀, memory, fun _ => []⟩) t c := by
  induction h with
  | nil => exact simulates_idleAt
  | snoc _ hnext ih =>
      rw [foldl_advance]
      exact ih.step (System.step_of_next server hnext)

theorem serialises_of_run {c₀ : Threads ι} (h : server.AnyRun c₀ t c) :
    ∃ es, Serialises c₀ t c es := by
  induction h with
  | nil => exact ⟨[], .nil⟩
  | snoc _ hnext _ ih =>
      obtain ⟨es, hes⟩ := ih
      exact ⟨_, hes.snoc hnext⟩

/-- In every run of any number of threads the tables and the replies are those of the
serial run of the commands and the `TriggerAlert`s, in the order of their commit steps. -/
theorem serial_of_run (h : server.AnyRun (System.idleAt w₀ memory) t c) :
    ∃ es, Serialises (System.idleAt w₀ memory) t c es ∧
      Agrees (es.foldl SerialState.serve ⟨w₀, memory, fun _ => []⟩) t c := by
  obtain ⟨es, hes⟩ := serialises_of_run h
  exact ⟨es, hes, (simulates_of_serialises hes).agrees⟩

end Runs

end Serial

/-- Two connections of ann. She sets her email on the first one, and adds an alert on
the second one between the check of her password and the write. -/
def addDuringSetEmail : List (Choice (Fin 2) Job) :=
  [Choice.start 0 (Job.connect 7), Choice.step 0] ++
  Choice.start 0 (Job.line (ascii "REGISTER ann pw a@b")) :: List.replicate 2
    (Choice.step 0) ++
  Choice.start 0 (Job.line (ascii "LOGIN ann pw")) :: List.replicate 3 (Choice.step 0) ++
  [Choice.start 1 (Job.connect 8), Choice.step 1] ++
  Choice.start 1 (Job.line (ascii "LOGIN ann pw")) :: List.replicate 3 (Choice.step 1) ++
  [Choice.start 0 (Job.line (ascii "SET_EMAIL ann pw c@d")), Choice.step 0] ++
  Choice.start 1 (Job.line (ascii "ADD_PRICE ann rb2510 3500 0")) ::
    List.replicate 6 (Choice.step 1) ++
  List.replicate 2 (Choice.step 0)

set_option maxRecDepth 10000 in
theorem serial_addDuringSetEmail :
    ∃ t c es, Serialises (System.idleAt newWorld fun _ : Fin 2 => .new 0) t c es ∧
      Agrees (es.foldl SerialState.serve ⟨newWorld, fun _ => .new 0, fun _ => []⟩) t c ∧
      (repliesOf 0 t).length = 3 ∧ (repliesOf 1 t).length = 2 := by
  have hreplies : (server.follow (System.idleAt newWorld fun _ : Fin 2 => .new 0)
      addDuringSetEmail).map (fun out => ((repliesOf 0 out.1).length,
        (repliesOf 1 out.1).length)) = some (3, 2) := by
    decide +kernel
  obtain ⟨⟨t, c⟩, hfollow, hlength⟩ := Option.map_eq_some_iff.mp hreplies
  obtain ⟨es, hes, hagrees⟩ := serial_of_run (System.run_of_follow hfollow)
  obtain ⟨h₀, h₁⟩ := Prod.mk.inj hlength
  exact ⟨t, c, es, hes, hagrees, h₀, h₁⟩

end CloudAlert
