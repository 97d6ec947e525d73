import CloudAlert.Client.Exchange
import CloudAlert.Session.Commands

/-!
# The login exchange

Until a login succeeds there is no receiver thread: `SendCommand` reads the reply to LOGIN
off the connection itself. On the other end `HandleLogin` registers the socket before it
sends OK, so from that call on the notification worker may send TRIGGERED lines to it.
`loginExchange` is the machine of these parties, and `Undisturbed` are the steps that keep
out of each other's way; what such runs keep is in `LoginRuns.lean`.
-/

namespace CloudAlert

open Program

/-! ## The parties -/

/-- Where the main thread is in `LoginUser`. -/
inductive LoginUser where
  | idle
  | checking (deadline : UInt32) (lines : List Bytes)     -- at `GetTickCount`
  | receiving (deadline : UInt32) (lines : List Bytes)    -- at `m_client.RecvLine`
  | loggedIn                                              -- the receiver thread runs
deriving DecidableEq

/-- The connection and the parties that use it. -/
structure Login where
  server : Server
  toServer : Bytes             -- sent and not yet received
  handler : Option Handler     -- the handler in progress
  unsent : List Bytes          -- lines the session has still to send
  hand : Option Bytes          -- the message the worker has found the socket for
  toClient : Bytes             -- sent and not yet received
  client : LoginUser
  responseQ : List Bytes
  posted : List Bytes          -- posted as WM_APP_TRIGGERED
  -- what has happened
  returned : Option Bool       -- by the last `LoginUser`
  verdict : Option Bool        -- has `VerifyLogin` accepted its LOGIN
  consumed : List Bytes        -- lines `SendCommand` has read
  pushed : List Bytes          -- messages the worker has sent

/-- What can happen: `LoginUser` is called, a step of the session thread, the main thread
checks its deadline or receives a line, the worker takes a task of the user on the socket,
the worker sends, a step of the receiver thread, an event that is not about this
connection. -/
inductive LoginAction where
  | login (user password : Field) (now : UInt32)
  | session
  | check (now : UInt32)
  | receive
  | take (k : ℕ)
  | push
  | receiver
  | other (e : Event)

/-- What a call of the handler says about the LOGIN. -/
def verdictAfter (verdict : Option Bool) : (c : Call) → c.Ans → Option Bool
  | .verifyLogin _ _, uid => some (decide ((0 : ℤ) ≤ uid))
  | _, _ => verdict

/-- The next step of the session thread: it sends a line, makes a call, is done with the
handler, or receives a line. -/
def Login.stepSession (sock : Socket) (s : Login) : Option Login :=
  match s.unsent, s.handler with
  | resp :: rest, _ => some { s with
      unsent := rest, toClient := s.toClient ++ serverSendLine resp }
  | [], some (.call c k) => some { s with
      server := { s.server with world := (exec c s.server.world).2 },
      handler := some (k (exec c s.server.world).1),
      verdict := verdictAfter s.verdict c (exec c s.server.world).1 }
  | [], some (.ret (self, reply)) =>
      if reply.ended then none
      else some { s with
        server := { s.server with
          sessions := Function.update s.server.sessions sock (some self) },
        handler := none, unsent := reply.lines }
  | [], none =>
      match serverRecvLine [] s.toServer, s.server.sessions sock with
      | some (line, rest), some self =>
          if line = [] then some { s with toServer := rest }
          else some { s with toServer := rest, handler := some (dispatch self line) }
      | _, _ => none

/-- `SendCommand` has received a line. -/
def Login.stepReceive (s : Login) : Option Login :=
  match s.client, clientRecvLine [] s.toClient with
  | .receiving deadline lines, some (line, rest) =>
      if stops false line then some { s with
        toClient := rest, consumed := s.consumed ++ [line],
        client := if isOk (lines ++ [line]) then .loggedIn else .idle,
        returned := some (isOk (lines ++ [line])) }
      else some { s with
        toClient := rest, consumed := s.consumed ++ [line],
        client := .checking deadline (lines ++ [line]) }
  | _, _ => none

/-- The next step of `RecvThreadProc`. -/
def Login.stepReceiver (s : Login) : Option Login :=
  match s.client, clientRecvLine [] s.toClient with
  | .loggedIn, some (line, rest) =>
      if isTriggered line then some { s with
        toClient := rest, posted := s.posted ++ [line] }
      else some { s with toClient := rest, responseQ := s.responseQ ++ [line] }
  | _, _ => none

/-- The login exchange on one connection. -/
def loginExchange (sock : Socket) : Machine Login LoginAction where
  next s
    | .login user password now =>
        if s.client = .idle then some { s with
          responseQ := [],
          toServer := s.toServer ++
            clientSendLine (ClientCommand.login user password).text,
          client := .checking (now + 6000) [], returned := none, verdict := none }
        else none
    | .session => s.stepSession sock
    | .check now =>
        match s.client with
        | .checking deadline lines =>
            if deadline ≤ now then some { s with client := .idle, returned := some false }
            else some { s with client := .receiving deadline lines }
        | _ => none
    | .receive => s.stepReceive
    | .take k =>
        match s.hand, s.server.world.tasks[k]? with
        | none, some task =>
            if s.server.world.userSockets task.userId = some sock then
              some { s with hand := some task.msg }
            else none
        | _, _ => none
    | .push => s.hand.map fun msg => { s with
        hand := none, toClient := s.toClient ++ msg, pushed := s.pushed ++ [msg] }
    | .receiver => s.stepReceiver
    | .other e =>
        if e.spares sock then
          (serve exec s.server e).map fun server => { s with server := server }
        else none

/-- When the connection has been made. -/
def Login.start (server : Server) : Login where
  server := server
  toServer := []
  handler := none
  unsent := []
  hand := none
  toClient := []
  client := .idle
  responseQ := []
  posted := []
  returned := none
  verdict := none
  consumed := []
  pushed := []

/-- What an action can do. -/
inductive LoginStep (sock : Socket) (s : Login) : LoginAction → Login → Prop where
  | login {user password now} (hclient : s.client = .idle) :
      LoginStep sock s (.login user password now) { s with
        responseQ := [],
        toServer := s.toServer ++ clientSendLine (ClientCommand.login user password).text,
        client := .checking (now + 6000) [], returned := none, verdict := none }
  | answer {resp rest} (hunsent : s.unsent = resp :: rest) :
      LoginStep sock s .session { s with
        unsent := rest, toClient := s.toClient ++ serverSendLine resp }
  | call {c k} (hunsent : s.unsent = []) (hhandler : s.handler = some (.call c k)) :
      LoginStep sock s .session { s with
        server := { s.server with world := (exec c s.server.world).2 },
        handler := some (k (exec c s.server.world).1),
        verdict := verdictAfter s.verdict c (exec c s.server.world).1 }
  | done {self reply} (hunsent : s.unsent = [])
      (hhandler : s.handler = some (.ret (self, reply))) (hfit : reply.ended = false) :
      LoginStep sock s .session { s with
        server := { s.server with
          sessions := Function.update s.server.sessions sock (some self) },
        handler := none, unsent := reply.lines }
  | skip {rest} (hunsent : s.unsent = []) (hhandler : s.handler = none)
      (hrecv : serverRecvLine [] s.toServer = some ([], rest)) :
      LoginStep sock s .session { s with toServer := rest }
  | dispatch {line rest self} (hunsent : s.unsent = []) (hhandler : s.handler = none)
      (hrecv : serverRecvLine [] s.toServer = some (line, rest)) (hline : line ≠ [])
      (hself : s.server.sessions sock = some self) :
      LoginStep sock s .session { s with
        toServer := rest, handler := some (dispatch self line) }
  | giveUp {deadline lines now} (hclient : s.client = .checking deadline lines)
      (hnow : deadline ≤ now) :
      LoginStep sock s (.check now) { s with client := .idle, returned := some false }
  | goOn {deadline lines now} (hclient : s.client = .checking deadline lines)
      (hnow : ¬ deadline ≤ now) :
      LoginStep sock s (.check now) { s with client := .receiving deadline lines }
  | finish {deadline lines line rest} (hclient : s.client = .receiving deadline lines)
      (hrecv : clientRecvLine [] s.toClient = some (line, rest))
      (hstops : stops false line = true) :
      LoginStep sock s .receive { s with
        toClient := rest, consumed := s.consumed ++ [line],
        client := if isOk (lines ++ [line]) then .loggedIn else .idle,
        returned := some (isOk (lines ++ [line])) }
  | read {deadline lines line rest} (hclient : s.client = .receiving deadline lines)
      (hrecv : clientRecvLine [] s.toClient = some (line, rest))
      (hstops : stops false line = false) :
      LoginStep sock s .receive { s with
        toClient := rest, consumed := s.consumed ++ [line],
        client := .checking deadline (lines ++ [line]) }
  | take {k task} (hhand : s.hand = none) (htask : s.server.world.tasks[k]? = some task)
      (honline : s.server.world.userSockets task.userId = some sock) :
      LoginStep sock s (.take k) { s with hand := some task.msg }
  | push {msg} (hhand : s.hand = some msg) :
      LoginStep sock s .push { s with
        hand := none, toClient := s.toClient ++ msg, pushed := s.pushed ++ [msg] }
  | post {line rest} (hclient : s.client = .loggedIn)
      (hrecv : clientRecvLine [] s.toClient = some (line, rest))
      (htriggered : isTriggered line = true) :
      LoginStep sock s .receiver { s with toClient := rest, posted := s.posted ++ [line] }
  | queue {line rest} (hclient : s.client = .loggedIn)
      (hrecv : clientRecvLine [] s.toClient = some (line, rest))
      (htriggered : isTriggered line = false) :
      LoginStep sock s .receiver { s with
        toClient := rest, responseQ := s.responseQ ++ [line] }
  | other {e server} (hspares : e.spares sock = true)
      (hserve : serve exec s.server e = some server) :
      LoginStep sock s (.other e) { s with server := server }

theorem step_of_loginExchange {sock : Socket} {s s' : Login} {a : LoginAction}
    (h : (loginExchange sock).next s a = some s') : LoginStep sock s a s' := by
  cases a with
  | login user password now =>
      obtain ⟨hclient, h⟩ := Option.ite_none_right_eq_some.mp h
      obtain rfl := Option.some.inj h
      exact .login hclient
  | session =>
      simp only [loginExchange, Login.stepSession] at h
      split at h
      · rename_i hunsent
        obtain rfl := Option.some.inj h
        exact .answer hunsent
      · rename_i hunsent hhandler
        obtain rfl := Option.some.inj h
        exact .call hunsent hhandler
      · rename_i hunsent hhandler
        obtain ⟨hfit, h⟩ := Option.ite_none_left_eq_some.mp h
        obtain rfl := Option.some.inj h
        exact .done hunsent hhandler (Bool.eq_false_iff.mpr hfit)
      · rename_i hunsent hhandler
        split at h
        · rename_i hrecv hself
          split at h
          · rename_i hnil
            subst hnil
            obtain rfl := Option.some.inj h
            exact .skip hunsent hhandler hrecv
          · rename_i hline
            obtain rfl := Option.some.inj h
            exact .dispatch hunsent hhandler hrecv hline hself
        · cases h
  | check now =>
      simp only [loginExchange] at h
      split at h
      · rename_i hclient
        split at h
        · rename_i hnow
          obtain rfl := Option.some.inj h
          exact .giveUp hclient hnow
        · rename_i hnow
          obtain rfl := Option.some.inj h
          exact .goOn hclient hnow
      · cases h
  | receive =>
      simp only [loginExchange, Login.stepReceive] at h
      split at h
      · rename_i hclient hrecv
        split at h
        · rename_i hstops
          obtain rfl := Option.some.inj h
          exact .finish hclient hrecv hstops
        · rename_i hstops
          obtain rfl := Option.some.inj h
          exact .read hclient hrecv (Bool.eq_false_iff.mpr hstops)
      · cases h
  | take k =>
      simp only [loginExchange] at h
      split at h
      · rename_i hhand htask
        obtain ⟨honline, h⟩ := Option.ite_none_right_eq_some.mp h
        obtain rfl := Option.some.inj h
        exact .take hhand htask honline
      · cases h
  | push =>
      obtain ⟨msg, hhand, rfl⟩ := Option.map_eq_some_iff.mp h
      exact .push hhand
  | receiver =>
      simp only [loginExchange, Login.stepReceiver] at h
      split at h
      · rename_i hclient hrecv
        split at h
        · rename_i htriggered
          obtain rfl := Option.some.inj h
          exact .post hclient hrecv htriggered
        · rename_i htriggered
          obtain rfl := Option.some.inj h
          exact .queue hclient hrecv (Bool.eq_false_iff.mpr htriggered)
      · cases h
  | other e =>
      obtain ⟨hspares, h⟩ := Option.ite_none_right_eq_some.mp h
      obtain ⟨server, hserve, rfl⟩ := Option.map_eq_some_iff.mp h
      exact .other hspares hserve

/-! ## The reply to LOGIN -/

/-- The line says what the verdict is. -/
def VerdictLine (verdict : Option Bool) (line : Bytes) : Prop :=
  IsStatus line ∧ (isOk [line] = true ↔ verdict = some true)

/-- The reply is one such line. -/
def VerdictReply (verdict : Option Bool) (reply : Reply) : Prop :=
  ∃ line, reply = ⟨[line], false⟩ ∧ VerdictLine verdict line

/-- The calls of `HandleLogin`. -/
def LoginCall : Call → Prop
  | .verifyLogin _ _ | .registerSocket _ _ => True
  | _ => False

/-- The handler is going to answer with the verdict. -/
abbrev Decides (h : Handler) (verdict : Option Bool) : Prop :=
  h.Tracks verdictAfter LoginCall (fun verdict out => VerdictReply verdict out.2) verdict

theorem handleLogin_decides (self : Session) (line : Bytes) :
    Decides (handleLogin self line) none := by
  unfold handleLogin
  split
  · rename_i username password _ _
    refine ⟨trivial, fun uid => ?_⟩
    change Decides (if uid < 0 then _ else _) (some (decide (0 ≤ uid)))
    split
    · rename_i hrefused
      rw [decide_eq_false (not_le.mpr hrefused)]
      exact ⟨_, rfl, by decide, by decide⟩
    · rename_i haccepted
      rw [decide_eq_true (not_lt.mp haccepted)]
      refine ⟨trivial, fun _ => ⟨_, rfl, by decide, ?_⟩⟩
      exact iff_of_true (by decide) rfl
  · exact ⟨_, rfl, by decide, by decide⟩

theorem dispatch_decides (self : Session) (user password : Field) :
    Decides (dispatch self (ClientCommand.login user password).text) none := by
  rw [dispatch_login ((ClientCommand.login user password).commandWord_text)]
  exact handleLogin_decides _ _

theorem Healthy.login {w : World} (h : Healthy w) {c : Call} (hc : LoginCall c) :
    Healthy (exec c w).2 := by
  cases c with
  | verifyLogin => exact h
  | registerSocket => exact ⟨h.coherent, h.db, h.tasks⟩
  | _ => exact hc.elim

/-! ## Undisturbed logins -/

/-- Nothing is under way on the connection. -/
def Login.Quiet (s : Login) : Prop :=
  s.toServer = [] ∧ s.handler.isNone ∧ s.unsent = [] ∧ s.toClient = []

/-- The next call of the handler accepts the LOGIN. -/
def Login.accepts (s : Login) : Bool :=
  match s.handler with
  | some (.call (.verifyLogin username password) _) =>
      0 ≤ s.server.world.db.verifyLogin .none username password
  | _ => false

/-- The check of the deadline fails. -/
def Login.givesUp (s : Login) (now : UInt32) : Bool :=
  match s.client with
  | .checking deadline _ => deadline ≤ now
  | _ => false

/-- The worker sends only when the server has accepted the LOGIN and has sent OK;
`SendCommand` does not give up on a LOGIN that the server accepts; and `LoginUser` is
called when nothing is under way, with a line that the server reads as one. -/
def Undisturbed (s : Login) : LoginAction → Prop
  | .login user password _ =>
      s.Quiet ∧ (ClientCommand.login user password).text.length ≤ recvBufSize
  | .session => s.accepts → s.returned = none
  | .check now => s.givesUp now → s.verdict ≠ some true
  | .push => s.verdict = some true ∧ s.handler.isNone ∧ s.unsent = []
  | _ => True

instance (s : Login) : Decidable s.Quiet := inferInstanceAs (Decidable (_ ∧ _))

instance (s : Login) (a : LoginAction) : Decidable (Undisturbed s a) :=
  match a with
  | .login _ _ _ | .push => inferInstanceAs (Decidable (_ ∧ _))
  | .session | .check _ => inferInstanceAs (Decidable (_ → _))
  | .receive | .take _ | .receiver | .other _ => inferInstanceAs (Decidable True)

end CloudAlert
