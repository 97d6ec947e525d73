import CloudAlert.Client.MainFrame
import CloudAlert.Program.Machine

/-!
# Commands and notifications on one connection

The window's main thread sends a command and collects the lines its receiver thread puts
into `m_responseQ`; the receiver posts TRIGGERED lines to the window instead. On the other
end the session thread answers the commands, and the notification worker sends messages
between the lines of a reply. `exchange` is the machine of these parties; what its runs
keep is in `ExchangeRuns.lean`.
-/

namespace CloudAlert

open Program

/-! ## The parties -/

/-- Where the main thread is in `SendCommand`. -/
inductive MainThread where
  | idle
  | sending (c : ClientCommand)                         -- at `m_client.SendLine`
  | reading (c : ClientCommand) (lines : List Bytes)    -- at `ReadResponseLine`
deriving DecidableEq

/-- The connection and the two parties at its ends. -/
structure Exchange where
  server : Server
  toServer : Bytes             -- sent and not yet received
  unsent : List Bytes          -- lines the session has still to send
  toClient : Bytes             -- sent and not yet received
  responseQ : List Bytes
  posted : List Bytes          -- posted as WM_APP_TRIGGERED
  main : MainThread
  -- what has happened
  handled : List (Bytes × List Bytes)     -- lines dispatched, with the replies
  returned : List (Bytes × List Bytes)    -- commands returned from, with the lines
  pushed : List Bytes                     -- messages the worker has sent

/-- What can happen: `SendCommand` is called, a step of the main thread, of the session
thread or of the receiver thread, the worker sends the message of a task, an event that is
not about this connection. -/
inductive ExchangeAction where
  | call (c : ClientCommand)
  | main
  | session
  | receiver
  | push (k : ℕ)
  | other (e : Event)

/-- The event leaves the session on `sock` alone. -/
def Event.spares (sock : Socket) : Event → Bool
  | .startUp _ => false
  | .connect sock' | .line sock' _ | .disconnect sock' => sock' ≠ sock
  | .tick _ _ | .timerCheck => true

/-- The next step of the main thread. -/
def Exchange.stepMain (s : Exchange) : Option Exchange :=
  match s.main with
  | .idle => none
  | .sending c => some { s with
      toServer := s.toServer ++ clientSendLine c.text, main := .reading c [] }
  | .reading c lines =>
      match s.responseQ with
      | [] => none
      | line :: rest =>
          if stops c.expectEnd line then some { s with
            responseQ := rest, main := .idle,
            returned := s.returned ++ [(c.text, lines ++ [line])] }
          else some { s with responseQ := rest, main := .reading c (lines ++ [line]) }

/-- The next step of the session thread. -/
def Exchange.stepSession (sock : Socket) (s : Exchange) : Option Exchange :=
  match s.unsent with
  | resp :: rest => some { s with
      unsent := rest, toClient := s.toClient ++ serverSendLine resp }
  | [] =>
      match serverRecvLine [] s.toServer with
      | none => none
      | some (line, rest) =>
          if line = [] then some { s with toServer := rest }
          else
            match serve exec s.server (.line sock line),
              s.server.reply exec sock line with
            | some server, some reply => some { s with
                server := server, toServer := rest, unsent := reply.lines,
                handled := s.handled ++ [(line, reply.lines)] }
            | _, _ => none

/-- The next step of `RecvThreadProc`. -/
def Exchange.stepReceiver (s : Exchange) : Option Exchange :=
  match clientRecvLine [] s.toClient with
  | none => none
  | some (line, rest) =>
      if isTriggered line then some { s with
        toClient := rest, posted := s.posted ++ [line] }
      else some { s with toClient := rest, responseQ := s.responseQ ++ [line] }

/-- The window and the server on one connection. -/
def exchange (sock : Socket) : Machine Exchange ExchangeAction where
  next s
    | .call c =>
        match s.main with
        | .idle =>
            if c.text.length ≤ recvBufSize then
              some { s with responseQ := [], main := .sending c }
            else none
        | _ => none
    | .main => s.stepMain
    | .session => s.stepSession sock
    | .receiver => s.stepReceiver
    | .push k => s.server.world.tasks[k]?.map fun task =>
        { s with toClient := s.toClient ++ task.msg, pushed := s.pushed ++ [task.msg] }
    | .other e =>
        if e.spares sock then
          (serve exec s.server e).map fun server => { s with server := server }
        else none

/-- When the receiver thread has just been started. -/
def Exchange.start (server : Server) : Exchange where
  server := server
  toServer := []
  unsent := []
  toClient := []
  responseQ := []
  posted := []
  main := .idle
  handled := []
  returned := []
  pushed := []

/-- What an action can do. -/
inductive ExchangeStep (sock : Socket) (s : Exchange) :
    ExchangeAction → Exchange → Prop where
  | call {c} (hmain : s.main = .idle) (hlength : c.text.length ≤ recvBufSize) :
      ExchangeStep sock s (.call c) { s with responseQ := [], main := .sending c }
  | send {c} (hmain : s.main = .sending c) : ExchangeStep sock s .main { s with
      toServer := s.toServer ++ clientSendLine c.text, main := .reading c [] }
  | finish {c lines line rest} (hmain : s.main = .reading c lines)
      (hqueue : s.responseQ = line :: rest) (hstops : stops c.expectEnd line = true) :
      ExchangeStep sock s .main { s with
        responseQ := rest, main := .idle,
        returned := s.returned ++ [(c.text, lines ++ [line])] }
  | read {c lines line rest} (hmain : s.main = .reading c lines)
      (hqueue : s.responseQ = line :: rest) (hstops : stops c.expectEnd line = false) :
      ExchangeStep sock s .main { s with
        responseQ := rest, main := .reading c (lines ++ [line]) }
  | answer {resp rest} (hunsent : s.unsent = resp :: rest) :
      ExchangeStep sock s .session { s with
        unsent := rest, toClient := s.toClient ++ serverSendLine resp }
  | skip {rest} (hunsent : s.unsent = [])
      (hrecv : serverRecvLine [] s.toServer = some ([], rest)) :
      ExchangeStep sock s .session { s with toServer := rest }
  | dispatch {line rest server reply} (hunsent : s.unsent = [])
      (hrecv : serverRecvLine [] s.toServer = some (line, rest)) (hline : line ≠ [])
      (hserve : serve exec s.server (.line sock line) = some server)
      (hreply : s.server.reply exec sock line = some reply) :
      ExchangeStep sock s .session { s with
        server := server, toServer := rest, unsent := reply.lines,
        handled := s.handled ++ [(line, reply.lines)] }
  | post {line rest} (hrecv : clientRecvLine [] s.toClient = some (line, rest))
      (htriggered : isTriggered line = true) :
      ExchangeStep sock s .receiver { s with
        toClient := rest, posted := s.posted ++ [line] }
  | queue {line rest} (hrecv : clientRecvLine [] s.toClient = some (line, rest))
      (htriggered : isTriggered line = false) :
      ExchangeStep sock s .receiver { s with
        toClient := rest, responseQ := s.responseQ ++ [line] }
  | push {k task} (htask : s.server.world.tasks[k]? = some task) :
      ExchangeStep sock s (.push k) { s with
        toClient := s.toClient ++ task.msg, pushed := s.pushed ++ [task.msg] }
  | other {e server} (hspares : e.spares sock = true)
      (hserve : serve exec s.server e = some server) :
      ExchangeStep sock s (.other e) { s with server := server }

theorem step_of_exchange {sock : Socket} {s s' : Exchange} {a : ExchangeAction}
    (h : (exchange sock).next s a = some s') : ExchangeStep sock s a s' := by
  cases a with
  | call c =>
      simp only [exchange] at h
      split at h
      · rename_i hmain
        obtain ⟨hlength, h⟩ := Option.ite_none_right_eq_some.mp h
        obtain rfl := Option.some.inj h
        exact .call hmain hlength
      · cases h
  | main =>
      simp only [exchange, Exchange.stepMain] at h
      split at h
      · cases h
      · rename_i hmain
        obtain rfl := Option.some.inj h
        exact .send hmain
      · rename_i hmain
        split at h
        · cases h
        · rename_i hqueue
          split at h
          · rename_i hstops
            obtain rfl := Option.some.inj h
            exact .finish hmain hqueue hstops
          · rename_i hstops
            obtain rfl := Option.some.inj h
            exact .read hmain hqueue (Bool.eq_false_iff.mpr hstops)
  | session =>
      simp only [exchange, Exchange.stepSession] at h
      split at h
      · rename_i hunsent
        obtain rfl := Option.some.inj h
        exact .answer hunsent
      · rename_i hunsent
        split at h
        · cases h
        · rename_i hrecv
          split at h
          · rename_i hnil
            subst hnil
            obtain rfl := Option.some.inj h
            exact .skip hunsent hrecv
          · rename_i hline
            split at h
            · rename_i hserve hreply
              obtain rfl := Option.some.inj h
              exact .dispatch hunsent hrecv hline hserve hreply
            · cases h
  | receiver =>
      simp only [exchange, Exchange.stepReceiver] at h
      split at h
      · cases h
      · rename_i hrecv
        split at h
        · rename_i htriggered
          obtain rfl := Option.some.inj h
          exact .post hrecv htriggered
        · rename_i htriggered
          obtain rfl := Option.some.inj h
          exact .queue hrecv (Bool.eq_false_iff.mpr htriggered)
  | push k =>
      obtain ⟨task, htask, rfl⟩ := Option.map_eq_some_iff.mp h
      exact .push htask
  | other e =>
      obtain ⟨hspares, h⟩ := Option.ite_none_right_eq_some.mp h
      obtain ⟨server, hserve, rfl⟩ := Option.map_eq_some_iff.mp h
      exact .other hspares hserve

theorem sessions_of_spares {sock : Socket} {e : Event} {s s' : Server}
    (hspares : e.spares sock = true) (h : serve exec s e = some s') :
    s'.sessions sock = s.sessions sock := by
  cases step_of_serve h with
  | startUp => cases hspares
  | connect sock' | line sock' | disconnect sock' =>
      exact Function.update_of_ne (Ne.symm (of_decide_eq_true hspares)) _ _
  | tick | timerCheck => rfl

/-! ## What is on the connection -/

theorem newline_notMem_of_plain {line : Bytes} (h : ∀ b ∈ line, Plain b) : 10 ∉ line :=
  fun hmem => (h 10 hmem).2.1 rfl

theorem serverRecvLine_text {c : ClientCommand} (hlength : c.text.length ≤ recvBufSize) :
    serverRecvLine [] (clientSendLine c.text) = some (c.text, []) := by
  have hnewline := newline_notMem_of_plain c.plain_text
  have hlast : c.text.getLast? ≠ some 10 := fun h => hnewline (List.mem_of_getLast? h)
  rw [clientSendLine, if_neg hlast, serverRecvLine_line hnewline (Nat.zero_le _),
    List.nil_append, dropCR_of_plain c.plain_text, overflowed_of_le hlength]

theorem clientRecvLine_wire {line : Bytes} (h : ∀ b ∈ line, Plain b) (wire : List Bytes) :
    clientRecvLine [] ((line :: wire).flatMap serverSendLine) =
      some (line, wire.flatMap serverSendLine) := by
  rw [List.flatMap_cons, serverSendLine, List.append_assoc, List.singleton_append,
    clientRecvLine_line (newline_notMem_of_plain h), List.nil_append, dropCR_of_plain h]

theorem wire_of_recv {wire : List Bytes} (hplain : ∀ line ∈ wire, ∀ b ∈ line, Plain b)
    {line rest : Bytes}
    (h : clientRecvLine [] (wire.flatMap serverSendLine) = some (line, rest)) :
    ∃ wire', wire = line :: wire' ∧ rest = wire'.flatMap serverSendLine := by
  cases wire with
  | nil => cases h
  | cons line' wire' =>
      rw [clientRecvLine_wire (hplain line' List.mem_cons_self)] at h
      obtain ⟨rfl, rfl⟩ := Prod.mk.inj (Option.some.inj h)
      exact ⟨wire', rfl, rfl⟩

theorem wire_eq_nil {wire : List Bytes} (h : wire.flatMap serverSendLine = []) :
    wire = [] := by
  cases wire with
  | nil => rfl
  | cons line wire' =>
      rw [List.flatMap_cons, serverSendLine] at h
      simp at h

/-- A reply goes on after a line exactly if `SendCommand` does not stop there. -/
theorem Complete.stops_iff {expectEnd : Bool} {before after : List Bytes} {line : Bytes}
    (h : Complete expectEnd (before ++ line :: after)) :
    stops expectEnd line = true ↔ after = [] := by
  obtain ⟨body, last, heq, hlast, hbody⟩ := h
  cases List.eq_nil_or_concat after with
  | inl hnil =>
      subst hnil
      obtain ⟨-, hline⟩ := List.append_inj' heq rfl
      obtain rfl := List.singleton_inj.mp hline
      exact iff_of_true hlast rfl
  | inr hmore =>
      obtain ⟨after', last', rfl⟩ := hmore
      have hsplit : (before ++ line :: after') ++ [last'] = body ++ [last] := by
        rw [← heq]
        simp
      obtain ⟨hbefore, -⟩ := List.append_inj' hsplit rfl
      have hin : line ∈ body := by
        rw [← hbefore]
        simp
      exact iff_of_false (by rw [hbody line hin]; exact Bool.false_ne_true) (by simp)

end CloudAlert
