import CloudAlert.Server.Accounts
import CloudAlert.Server.History
import CloudAlert.Session.Commands

/-!
# Logged-in sessions

The id and the name a session holds are those of one users row that has a
password (`LoggedIn`). LOGIN establishes that, and no call of any thread ends it,
since ids, usernames and non-empty passwords never change.
-/

namespace CloudAlert

open Program

/-! ## LOGIN -/

/-- What a LOGIN line can do. -/
inductive LoginOutcome (self : Session) (line : Bytes) (w : World) :
    Session → World → Prop where
  | refused (hrefused : ∀ word u p rest, splitLine line = word :: u :: p :: rest →
      w.db.verifyLogin .none u p < 0) : LoginOutcome self line w self w
  | accepted {word u p : Bytes} {rest : List Bytes}
      (htokens : splitLine line = word :: u :: p :: rest)
      (huid : 0 ≤ w.db.verifyLogin .none u p) :
      LoginOutcome self line w
        { self with userId := w.db.verifyLogin .none u p, username := u }
        (w.online (w.db.verifyLogin .none u p) self.sock)

theorem login_outcome (self : Session) {line : Bytes}
    (h : commandWord line = ascii "LOGIN") (w : World) :
    LoginOutcome self line w (run exec (dispatch self line) w).1.1
      (run exec (dispatch self line) w).2 := by
  rw [dispatch_login h]
  by_cases htokens : ∃ word u p rest, splitLine line = word :: u :: p :: rest
  · obtain ⟨word, u, p, rest, htokens⟩ := htokens
    rw [run_handleLogin htokens]
    split
    · rename_i huid
      refine .refused fun word' u' p' rest' h' => ?_
      obtain ⟨rfl, rfl, rfl, rfl⟩ : word = word' ∧ u = u' ∧ p = p' ∧ rest = rest' := by
        simpa [htokens] using h'
      exact huid
    · rename_i huid
      exact .accepted htokens (not_lt.mp huid)
  · have hrefused : LoginOutcome self line w self w :=
      .refused fun word u p rest h' => absurd ⟨word, u, p, rest, h'⟩ htokens
    unfold handleLogin
    split
    · rename_i word u p rest h'
      exact absurd ⟨word, u, p, rest, h'⟩ htokens
    · exact hrefused

/-! ## The row of a session -/

/-- The session's id and name are those of a users row with a password. -/
def LoggedIn (db : AlertDB) (self : Session) : Prop :=
  ∃ r ∈ db.users.rows, r.id = self.userId ∧ r.username = cstr self.username ∧
    r.password ≠ Text.empty

/-- No call ends a login. -/
theorem LoggedIn.after {w : World} {self : Session} (h : LoggedIn w.db self) (c : Call) :
    LoggedIn (exec c w).2.db self := by
  obtain ⟨r, hr, hid, hname, hpassword⟩ := h
  obtain ⟨r', hr', hid', hname', hpassword'⟩ := user_after c hr
  refine ⟨r', hr', hid'.trans hid, hname'.trans hname, ?_⟩
  rw [hpassword' hpassword]
  exact hpassword

theorem LoggedIn.after_run {α : Type} {w : World} {self : Session}
    (h : LoggedIn w.db self) (p : Action α) : LoggedIn (run exec p w).2.db self :=
  run_invariant exec (fun w => LoggedIn w.db self) (fun c _ h => h.after c) p h

theorem loggedIn_of_verifyLogin {db : AlertDB} {self : Session} {line word u p : Bytes}
    {rest : List Bytes} (htokens : splitLine line = word :: u :: p :: rest)
    (huid : 0 ≤ db.verifyLogin .none u p) :
    LoggedIn db { self with userId := db.verifyLogin .none u p, username := u } := by
  obtain ⟨r, hr, hname, hpassword, hid⟩ := db.exists_of_verifyLogin huid
  have hmem : p ∈ splitLine line := by simp [htokens]
  refine ⟨r, hr, hid, hname, Text.ne_empty ?_⟩
  rw [hpassword]
  exact ne_nil_of_mem_splitLine hmem

/-- Every session that holds a user id is logged in. -/
def SessionsOk (s : Server) : Prop :=
  ∀ sock self, s.sessions sock = some self → 0 ≤ self.userId → LoggedIn s.world.db self

/-- A line leaves its own session logged in, if it leaves it with a user id. -/
theorem loggedIn_dispatch {self : Session} {line : Bytes} {w : World}
    (h : 0 ≤ self.userId → LoggedIn w.db self)
    (huser : 0 ≤ (run exec (dispatch self line) w).1.1.userId) :
    LoggedIn (run exec (dispatch self line) w).2.db
      (run exec (dispatch self line) w).1.1 := by
  by_cases hword : commandWord line = ascii "LOGIN"
  · have hout := login_outcome self hword w
    generalize (run exec (dispatch self line) w).1.1 = self' at hout huser
    generalize (run exec (dispatch self line) w).2 = w' at hout
    cases hout with
    | refused => exact h huser
    | accepted htokens huid => exact loggedIn_of_verifyLogin htokens huid
  · have hkept := (dispatch_run (w := w) self line (fun _ => True)
      (fun _ _ _ _ => trivial) trivial).2.2.resolve_right hword
    rw [hkept] at huser ⊢
    exact (h huser).after_run _

theorem sessionsOk_step {s s' : Server} {e : Event} (h : SessionsOk s)
    (hserve : serve exec s e = some s') : SessionsOk s' := by
  -- the sessions of which nothing but the world changes
  have hworld : ∀ {α : Type} (p : Action α) sock self, s.sessions sock = some self →
      0 ≤ self.userId → LoggedIn (run exec p s.world).2.db self :=
    fun p sock self hself huser => (h sock self hself huser).after_run p
  intro sock self hself huser
  cases step_of_serve hserve with
  | startUp => cases hself
  | connect sock₀ =>
      by_cases hsock : sock = sock₀
      · subst hsock
        simp only [Function.update_self, Option.some.injEq] at hself
        subst hself
        exact absurd huser (by simp [Session.new])
      · exact h sock self (by simpa [hsock] using hself) huser
  | line sock₀ line self₀ hself₀ =>
      by_cases hsock : sock = sock₀
      · subst hsock
        simp only [Function.update_self, Option.some.injEq] at hself
        subst hself
        exact loggedIn_dispatch (h sock self₀ hself₀) huser
      · exact hworld _ sock self (by simpa [hsock] using hself) huser
  | disconnect sock₀ =>
      by_cases hsock : sock = sock₀
      · subst hsock
        simp at hself
      · exact hworld _ sock self (by simpa [hsock] using hself) huser
  | tick contract p hrun =>
      have hkept := hworld (checkPriceAlert contract p) sock self hself huser
      rwa [hrun] at hkept
  | timerCheck hrun =>
      have hkept := hworld checkTimeAlerts sock self hself huser
      rwa [hrun] at hkept

theorem Reachable.sessionsOk {s : Server} (h : Reachable s) : SessionsOk s := by
  obtain ⟨db, clock, history, hs⟩ := h
  refine serveAll_invariant (fun s e s' h hserve => sessionsOk_step h hserve) ?_ hs
  intro sock self hself
  cases hself

end CloudAlert
