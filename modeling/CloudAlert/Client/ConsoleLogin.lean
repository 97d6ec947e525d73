import CloudAlert.Client.ConsoleRuns
import CloudAlert.Session.Login

/-!
# The name at the console

The console takes the name of a login for its own when the reply begins with OK; the
session takes it when it accepts the login. Both are the name of the last accepted login
among the commands they have seen (`loginName`), and at the menu they have seen the same
ones.
-/

namespace CloudAlert

open Program

/-! ## The last accepted login -/

/-- The name after a line and its reply. -/
def nameAfterReply (name : Option Bytes) (out : Bytes × List Bytes) : Option Bytes :=
  if commandWord out.1 = ascii "LOGIN" ∧ isOk out.2 = true then
    (splitLine out.1)[1]? else name

/-- The name of the last accepted login. -/
def loginName (handled : List (Bytes × List Bytes)) : Option Bytes :=
  handled.foldl nameAfterReply none

theorem loginName_concat (handled : List (Bytes × List Bytes))
    (out : Bytes × List Bytes) :
    loginName (handled ++ [out]) = nameAfterReply (loginName handled) out :=
  List.foldl_concat ..

theorem isToken_loginName {handled : List (Bytes × List Bytes)} {name : Bytes}
    (h : loginName handled = some name) : IsToken name := by
  induction handled using List.reverseRecOn with
  | nil => cases h
  | append_singleton handled out ih =>
      rw [loginName_concat, nameAfterReply] at h
      split at h
      · exact isToken_of_mem_splitLine (List.mem_of_getElem? h)
      · exact ih h

/-- The session is logged in under this name, or not at all. -/
def Session.IsUser (self : Session) : Option Bytes → Prop
  | none => self.userId < 0
  | some name => 0 ≤ self.userId ∧ self.username = name

/-- `g_username` is this name, or empty. -/
def NameIs (username : Field) : Option Bytes → Prop
  | none => username.val = []
  | some name => username.val = name ∧ name ≠ []

/-! ## The session -/

/-- The session is logged in as the lines dispatched say. -/
structure SessionNamed (sock : Socket) (s : Console) : Prop where
  sessions : SessionsOk s.server
  named : ∃ self, s.server.sessions sock = some self ∧ self.IsUser (loginName s.handled)

section Session

variable {sock : Socket} {s s' : Console}

theorem isUser_dispatch {self : Session} {line : Bytes} {w : World} {name : Option Bytes}
    (h : self.IsUser name) :
    (run exec (dispatch self line) w).1.1.IsUser
      (nameAfterReply name (line, (run exec (dispatch self line) w).1.2.lines)) := by
  by_cases hword : commandWord line = ascii "LOGIN"
  · rw [dispatch_login hword]
    by_cases htokens : ∃ word u p rest, splitLine line = word :: u :: p :: rest
    · obtain ⟨word, u, p, rest, htokens⟩ := htokens
      rw [run_handleLogin htokens]
      split
      · have hrefused : isOk [ascii "ERR wrong username or password"] ≠ true := by decide
        rw [nameAfterReply, if_neg fun hok => hrefused hok.2]
        exact h
      · rename_i huid
        have haccepted : isOk [ascii "OK"] = true := by decide
        rw [nameAfterReply, if_pos ⟨hword, haccepted⟩, htokens]
        exact ⟨not_lt.mp huid, rfl⟩
    · unfold handleLogin
      split
      · rename_i word u p rest h'
        exact absurd ⟨word, u, p, rest, h'⟩ htokens
      · have hrefused :
            isOk [ascii "ERR LOGIN requires username and password"] ≠ true := by
          decide
        change self.IsUser (nameAfterReply name (line, [_]))
        rw [nameAfterReply, if_neg fun hok => hrefused hok.2]
        exact h
  · have hkept := (dispatch_run (w := w) self line (fun _ => True)
      (fun _ _ _ _ => trivial) trivial).2.2.resolve_right hword
    rw [hkept, nameAfterReply, if_neg fun hok => hword hok.1]
    exact h

theorem SessionNamed.congr (h : SessionNamed sock s) (hserver : s'.server = s.server)
    (hhandled : s'.handled = s.handled) : SessionNamed sock s' := by
  refine ⟨?_, ?_⟩
  · rw [hserver]
    exact h.sessions
  · rw [hserver, hhandled]
    exact h.named

theorem SessionNamed.answers {line rest : Bytes} {server : Server} {reply : Reply}
    (h : SessionNamed sock s)
    (hserve : serve exec s.server (.line sock line) = some server)
    (hreply : s.server.reply exec sock line = some reply) :
    SessionNamed sock { s with
      server := server, toServer := rest, unsent := reply.lines,
      handled := s.handled ++ [(line, reply.lines)] } := by
  obtain ⟨self, hself, hnamed⟩ := h.named
  refine ⟨sessionsOk_step h.sessions hserve,
    (run exec (dispatch self line) s.server.world).1.1, ?_, ?_⟩
  · simp only [serve, hself] at hserve
    obtain ⟨-, hserve⟩ := Option.ite_none_left_eq_some.mp hserve
    obtain rfl := Option.some.inj hserve
    exact Function.update_self ..
  · rw [Server.reply, hself] at hreply
    obtain rfl := Option.some.inj hreply
    rw [loginName_concat]
    exact isUser_dispatch hnamed

theorem Chosen.server {m : MenuChoice} (h : Chosen s m s') :
    s'.server = s.server ∧ s'.handled = s.handled := by
  cases h with
  | asked | tooLong | exit | back => exact ⟨rfl, rfl⟩

theorem SessionNamed.step {a : ConsoleAction} (h : SessionNamed sock s)
    (hstep : ConsoleStep sock s a s') : SessionNamed sock s' := by
  cases hstep with
  | @choose m =>
      obtain ⟨hserver, hhandled⟩ := (chosen_choose s m).server
      exact h.congr hserver hhandled
  | dispatch _ _ _ hserve hreply => exact h.answers hserve hreply
  | other hspares hserve =>
      obtain ⟨self, hself, hnamed⟩ := h.named
      exact ⟨sessionsOk_step h.sessions hserve, self,
        (sessions_of_spares hspares hserve).trans hself ▸ rfl, hnamed⟩
  | drain | send | emptyLine | alert | line | sendFails | timeout | answer
      | skip | receive
  | push => exact h.congr rfl rfl

end Session

/-! ## The console -/

/-- The name typed at a login is one word. -/
def ConsoleAction.oneWord : ConsoleAction → Bool
  | .choose (.login user _) => decide (IsToken user.val)
  | _ => true

/-- The console has the name that the commands done say. -/
structure ConsoleNamed (s : Console) : Prop where
  named : NameIs s.username (loginName s.returned)
  first : ∀ c lines, s.main = .reading c lines → c.oneLine = true → lines = []
  oneWord : ∀ user pass, s.main.command = some (.login user pass) → IsToken user.val

section Console

variable {sock : Socket} {s s' : Console}

theorem ConsoleNamed.congr (h : ConsoleNamed s) (hname : s'.username = s.username)
    (hreturned : s'.returned = s.returned)
    (hmain : s'.main = s.main ∨ s'.main.command = none) : ConsoleNamed s' := by
  refine ⟨?_, fun c lines hreading hone => ?_, fun user pass hlogin => ?_⟩
  · rw [hname, hreturned]
    exact h.named
  · rcases hmain with hmain | hnone
    · exact h.first c lines (hmain ▸ hreading) hone
    · rw [hreading] at hnone
      cases hnone
  · rcases hmain with hmain | hnone
    · exact h.oneWord user pass (hmain ▸ hlogin)
    · rw [hnone] at hlogin
      cases hlogin

theorem splitLine_login {user pass : Field} (h : IsToken user.val) :
    (splitLine (ClientCommand.login user pass).text)[1]? = some user.val := by
  have hlogin : IsToken (ascii "LOGIN") := ⟨by decide, by decide +kernel⟩
  have htext : (ClientCommand.login user pass).text =
      ascii "LOGIN" ++ 32 :: (user.val ++ 32 :: pass.val) := by
    simp [ClientCommand.text, ClientCommand.word, ClientCommand.arguments, unwords]
  rw [htext, splitLine_token_append hlogin, splitLine_token_append h]
  rfl

theorem nameIs_login {user pass username : Field} {name : Option Bytes} (line : Bytes)
    (h : NameIs username name) (hword : IsToken user.val) :
    NameIs (Console.nameAfter (.login user pass) line username)
      (nameAfterReply name ((ClientCommand.login user pass).text, [line])) := by
  have hlogin : commandWord (ClientCommand.login user pass).text = ascii "LOGIN" :=
    ClientCommand.commandWord_text _
  unfold Console.nameAfter nameAfterReply
  dsimp only
  split
  · rename_i hok
    rw [if_pos ⟨hlogin, hok⟩, splitLine_login hword]
    exact ⟨rfl, hword.1⟩
  · rename_i hrefused
    rw [if_neg fun hok => hrefused hok.2]
    exact h

theorem nameAfterReply_other {c : ClientCommand} (h : c.word ≠ ascii "LOGIN")
    (name : Option Bytes) (lines : List Bytes) :
    nameAfterReply name (c.text, lines) = name :=
  if_neg fun hlogin => h (c.commandWord_text.symm.trans hlogin.1)

theorem ConsoleNamed.line {c : ClientCommand} {lines rest : List Bytes} {line : Bytes}
    (h : ConsoleNamed s) (hmain : s.main = .reading c lines) :
    ConsoleNamed ({ s with recvQ := rest }.takeLine c lines line) := by
  have hcommand : s.main.command = some c := by
    rw [hmain]
    rfl
  refine ⟨?_, fun c' lines' hreading hone => ?_, fun user pass hlogin => ?_⟩
  · by_cases hlogin : ∃ user pass, c = .login user pass
    · obtain ⟨user, pass, rfl⟩ := hlogin
      obtain rfl := h.first _ _ hmain rfl
      change NameIs _ (loginName (s.returned ++ [(_, [line])]))
      rw [loginName_concat]
      exact nameIs_login line h.named (h.oneWord _ _ hcommand)
    · have hword : c.word ≠ ascii "LOGIN" := by
        cases c with
        | login user pass => exact absurd ⟨user, pass, rfl⟩ hlogin
        | _ => dsimp only [ClientCommand.word]; decide
      have hname : Console.nameAfter c line s.username = s.username := by
        cases c with
        | login user pass => exact absurd ⟨user, pass, rfl⟩ hlogin
        | _ => rfl
      dsimp only [Console.takeLine]
      rw [hname]
      split
      · rw [loginName_concat, nameAfterReply_other hword]
        exact h.named
      · exact h.named
  · dsimp only [Console.takeLine] at hreading
    split at hreading
    · cases hreading
    · rename_i hmore
      obtain ⟨rfl, -⟩ := ConsoleMain.reading.inj hreading
      exact absurd (by rw [ClientCommand.lastLine, hone]; rfl) hmore
  · dsimp only [Console.takeLine] at hlogin
    split at hlogin
    · cases hlogin
    · exact h.oneWord user pass (hcommand.trans hlogin)

theorem ConsoleNamed.chosen {m : MenuChoice} (h : ConsoleNamed s)
    (hword : (ConsoleAction.choose m).oneWord) (hchosen : Chosen s m s') :
    ConsoleNamed s' := by
  cases hchosen with
  | tooLong | exit | back => exact h.congr rfl rfl (.inr rfl)
  | @asked c size hcommand =>
      refine ⟨h.named, nofun, fun user pass hlogin => ?_⟩
      obtain rfl := Option.some.inj hlogin
      cases m with
      | login user' pass' =>
          obtain ⟨hc, -⟩ := Prod.mk.inj (Option.some.inj hcommand)
          obtain ⟨rfl, rfl⟩ := ClientCommand.login.inj hc
          exact of_decide_eq_true hword
      | _ => cases hcommand

theorem ConsoleNamed.step {a : ConsoleAction} (h : ConsoleNamed s) (hword : a.oneWord)
    (hstep : ConsoleStep sock s a s') : ConsoleNamed s' := by
  cases hstep with
  | choose => exact h.chosen hword (chosen_choose _ _)
  | line hmain => exact h.line hmain
  | @send c hmain =>
      refine ⟨h.named, fun c' lines hreading _ => ?_, fun user pass hlogin => ?_⟩
      · exact (ConsoleMain.reading.inj hreading).2.symm
      · refine h.oneWord user pass ?_
        rw [hmain]
        exact hlogin
  | drain | emptyLine | sendFails | timeout => exact h.congr rfl rfl (.inr rfl)
  | alert | answer | skip | dispatch | receive | push | other =>
      exact h.congr rfl rfl (.inl rfl)

end Console

/-- When all replies have been read, both have the name of the last accepted login. -/
theorem agree_of_named {sock : Socket} {s : Console} (hsession : SessionNamed sock s)
    (hconsole : ConsoleNamed s) (hsame : s.returned = s.handled) :
    ∃ self, s.server.sessions sock = some self ∧
      (s.username.val = [] → self.userId < 0) ∧
      (s.username.val ≠ [] → 0 ≤ self.userId ∧ self.username = s.username.val ∧
        LoggedIn s.server.world.db self ∧ IsToken s.username.val) := by
  obtain ⟨hsessions, self, hself, huser⟩ := hsession
  have hname := hconsole.named
  rw [hsame] at hname
  refine ⟨self, hself, ?_⟩
  cases hlogin : loginName s.handled with
  | none =>
      rw [hlogin] at huser hname
      exact ⟨fun _ => huser, fun hne => absurd hname hne⟩
  | some name =>
      rw [hlogin] at huser hname
      obtain ⟨hid, huser⟩ := huser
      obtain ⟨heq, hne⟩ := hname
      refine ⟨fun hempty => absurd (heq.symm.trans hempty) hne,
        fun _ => ⟨hid, ?_, ?_, ?_⟩⟩
      · exact huser.trans heq.symm
      · exact hsessions sock self hself hid
      · exact heq ▸ isToken_loginName hlogin

theorem named_of_run {sock : Socket} {clock : ℕ → LocalTime} {marketData : Bool}
    {history : List Event} {server : Server} {t : List ConsoleAction} {s : Console}
    (hstart : serveAll exec (.off .created clock) (.startUp marketData :: history) =
      some server)
    (hnew : server.sessions sock = some (.new sock))
    (h : (console sock).Run (fun _ _ a => a.onTime ∧ a.oneWord) (.start server) t s) :
    SessionNamed sock s ∧ ConsoleNamed s := by
  induction h with
  | nil =>
      refine ⟨⟨Reachable.sessionsOk ⟨_, clock, _, hstart⟩, _, hnew, ?_⟩,
        rfl, nofun, nofun⟩
      exact (by decide : (-1 : ℤ) < 0)
  | snoc _ hnext hok ih =>
      exact ⟨ih.1.step (step_of_console hnext), ih.2.step hok.2 (step_of_console hnext)⟩

/-- The console is in step with `exchange` from the start. -/
theorem inStep_of_start {sock : Socket} {clock : ℕ → LocalTime} {marketData : Bool}
    {history : List Event} {server : Server} {t : List ConsoleAction} {s : Console}
    (hstart : serveAll exec (.off .created clock) (.startUp marketData :: history) =
      some server)
    (hnew : server.sessions sock = some (.new sock))
    (h : (console sock).Run (fun _ _ a => a.onTime ∧ a.oneWord) (.start server) t s) :
    ∃ t' e wire, InStep (.start server) s t' e ∧ Flow e (issued t') wire := by
  have hquiet : (Console.start server).Quiet :=
    ⟨rfl, rfl, rfl, [], rfl, List.forall_mem_nil _⟩
  have hopen : ((Console.start server).server.sessions sock).isSome := by
    rw [Console.start, hnew]
    rfl
  obtain ⟨t', e, hrel, hok⟩ := inStep_of_run hquiet (healthy_of_history hstart) hopen
    (h.mono fun _ _ _ hok => hok.1)
  obtain ⟨wire, hflow⟩ := hok.flow
  exact ⟨t', e, wire, hrel, hflow⟩

/-- As long as no command is given up and the names typed at the login are single words,
the console and its session agree at the menu: without a name at the console the session
is not logged in, and with one it is logged in under this name, which is that of its users
row. -/
theorem console_name {sock : Socket} {clock : ℕ → LocalTime} {marketData : Bool}
    {history : List Event} {server : Server} {t : List ConsoleAction} {s : Console}
    (hstart : serveAll exec (.off .created clock) (.startUp marketData :: history) =
      some server)
    (hnew : server.sessions sock = some (.new sock))
    (h : (console sock).Run (fun _ _ a => a.onTime ∧ a.oneWord) (.start server) t s)
    (hrest : s.main.command = none) :
    ∃ self, s.server.sessions sock = some self ∧
      (s.username.val = [] → self.userId < 0) ∧
      (s.username.val ≠ [] → 0 ≤ self.userId ∧ self.username = s.username.val ∧
        LoggedIn s.server.world.db self) := by
  obtain ⟨hsession, hconsole⟩ := named_of_run hstart hnew h
  -- at the menu all replies have been read
  obtain ⟨t', e, _, hrel, hflow⟩ := inStep_of_start hstart hnew h
  obtain ⟨hdone, -⟩ := hflow.phase.at_rest (hrel.main.trans (thread_of_none hrest))
  have hsame : s.returned = s.handled := by rw [hrel.returned, hrel.handled, hdone]; rfl
  obtain ⟨self, hself, hnobody, huser⟩ := agree_of_named hsession hconsole hsame
  refine ⟨self, hself, hnobody, fun hne => ?_⟩
  obtain ⟨hid, hsameName, hlogged, -⟩ := huser hne
  exact ⟨hid, hsameName, hlogged⟩

/-- A client has connected to the server that has fired ann's alert. -/
def annConnects : List Event := firedAlert ++ [.connect 8]

theorem new_annConnects :
    ∃ server, serveAll exec (.off .created fun _ => ⟨2025, 6, 0, 8, 55, 0⟩)
      (.startUp true :: annConnects) = some server ∧ server.sessions 8 =
      some (.new 8) := by
  have hserver : (serveAll exec (.off .created fun _ => ⟨2025, 6, 0, 8, 55, 0⟩)
      (.startUp true :: annConnects)).map (fun server =>
        (server.sessions 8).map fun self => (self.sock, self.userId, self.username)) =
        some (some (8, -1, [])) := by decide +kernel
  obtain ⟨server, hstart, hsession⟩ := Option.map_eq_some_iff.mp hserver
  obtain ⟨new, hnew, hparts⟩ := Option.map_eq_some_iff.mp hsession
  obtain rfl : new = .new 8 := by
    obtain ⟨sock, userId, username⟩ := new
    simpa [Session.new] using hparts
  exact ⟨server, hstart, hnew⟩

/-- A login with a wrong password and one with the right one. -/
def twoAttempts : List ConsoleAction :=
  [.main, .choose (.login annName annName), .main, .session, .session, .receiver, .main,
    .main, .choose (.login annName annPassword), .main, .session, .session,
    .receiver, .main]

set_option maxRecDepth 10000 in
/-- The console and the session have ann's name. -/
theorem console_name_ann :
    ∃ server s self, (console 8).Run (fun _ _ a => a.onTime ∧ a.oneWord) (.start server)
      twoAttempts s ∧ s.server.sessions 8 = some self ∧ s.username.val = ascii "ann" ∧
      0 ≤ self.userId ∧ self.username = ascii "ann" := by
  have hstate : (serveAll exec (.off .created fun _ => ⟨2025, 6, 0, 8, 55, 0⟩)
      (.startUp true :: annConnects)).map (fun server =>
        ((console 8).followIf (fun _ _ a => a.onTime && a.oneWord) [] (.start server)
          twoAttempts).map fun s => (s.main, s.username.val)) =
        some (some (.draining, ascii "ann")) := by
    decide +kernel
  obtain ⟨server, hstart, hnew⟩ := new_annConnects
  rw [hstart] at hstate
  obtain ⟨s, hs, hend⟩ := Option.map_eq_some_iff.mp (Option.some.inj hstate)
  obtain ⟨hmain, hname⟩ := Prod.mk.inj hend
  have hrun : (console 8).Run (fun _ _ a => a.onTime ∧ a.oneWord) (.start server)
      twoAttempts s :=
    (Machine.Run.followIf_append .nil hs).mono fun _ _ _ hok =>
    (Bool.and_eq_true _ _).mp hok
  obtain ⟨self, hself, -, huser⟩ := console_name hstart hnew hrun (by rw [hmain]; rfl)
  obtain ⟨hid, hsame, -⟩ := huser (by rw [hname]; decide)
  exact ⟨server, s, self, hrun, hself, hname, hid, hsame.trans hname⟩

end CloudAlert
