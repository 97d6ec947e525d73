import CloudAlert.Client.Exchange
import CloudAlert.Session.Buffers

/-!
# Every command gets its reply

`Phase` says how far the command in progress is, and `Flow` what is on the connection
meanwhile; `ExchangeOk` is what every action keeps. `sendCommand_returns_reply` says that
every `SendCommand` returns the reply to its own command, whole and with nothing else in
it.
-/

namespace CloudAlert

open Program

/-! ## The invariant -/

/-- The command that the action issues. -/
def ExchangeAction.command : ExchangeAction → List Bytes
  | .call c => [c.text]
  | _ => []

/-- The commands issued, in order. -/
def issued (t : List ExchangeAction) : List Bytes := t.flatMap ExchangeAction.command

/-- How far the command in progress is, when `replies` are the lines on the connection
that are not TRIGGERED lines. -/
inductive Phase (s : Exchange) (replies commands : List Bytes) : Prop where
  | quiet (hmain : s.main = .idle) (hserver : s.toServer = []) (hunsent : s.unsent = [])
      (hreplies : replies = []) (hqueue : s.responseQ = [])
      (hdone : s.returned = s.handled)
      (hissued : commands = s.handled.map Prod.fst)
  | called {c : ClientCommand} (hmain : s.main = .sending c)
      (hlength : c.text.length ≤ recvBufSize) (hserver : s.toServer = [])
      (hunsent : s.unsent = []) (hreplies : replies = []) (hqueue : s.responseQ = [])
      (hdone : s.returned = s.handled)
      (hissued : commands = s.handled.map Prod.fst ++ [c.text])
  | sent {c : ClientCommand} (hmain : s.main = .reading c [])
      (hlength : c.text.length ≤ recvBufSize)
      (hserver : s.toServer = clientSendLine c.text)
      (hunsent : s.unsent = []) (hreplies : replies = []) (hqueue : s.responseQ = [])
      (hdone : s.returned = s.handled)
      (hissued : commands = s.handled.map Prod.fst ++ [c.text])
  | answered {c : ClientCommand} {lines reply : List Bytes}
      (hmain : s.main = .reading c lines)
      (hserver : s.toServer = []) (hhandled : s.handled = s.returned ++ [(c.text, reply)])
      (hreply : reply = lines ++ (s.responseQ ++ (replies ++ s.unsent)))
      (hmore : s.responseQ ++ (replies ++ s.unsent) ≠ [])
      (hcomplete : Complete c.expectEnd reply) (hlines : ∀ line ∈ reply, ReplyLine line)
      (hissued : commands = s.handled.map Prod.fst)

theorem Phase.congr {s s' : Exchange} {replies commands : List Bytes}
    (h : Phase s replies commands) (hmain : s'.main = s.main)
    (hserver : s'.toServer = s.toServer) (hunsent : s'.unsent = s.unsent)
    (hqueue : s'.responseQ = s.responseQ) (hhandled : s'.handled = s.handled)
    (hreturned : s'.returned = s.returned) : Phase s' replies commands := by
  rcases s' with ⟨_, _, _, _, _, _, _, _, _, _⟩
  dsimp only at hmain hserver hunsent hqueue hhandled hreturned
  subst hmain hserver hunsent hqueue hhandled hreturned
  cases h with
  | quiet h₁ h₂ h₃ h₄ h₅ h₆ h₇ => exact .quiet h₁ h₂ h₃ h₄ h₅ h₆ h₇
  | called h₁ h₂ h₃ h₄ h₅ h₆ h₇ h₈ => exact .called h₁ h₂ h₃ h₄ h₅ h₆ h₇ h₈
  | sent h₁ h₂ h₃ h₄ h₅ h₆ h₇ h₈ => exact .sent h₁ h₂ h₃ h₄ h₅ h₆ h₇ h₈
  | answered h₁ h₂ h₃ h₄ h₅ h₆ h₇ h₈ => exact .answered h₁ h₂ h₃ h₄ h₅ h₆ h₇ h₈

/-- The lines on the connection, and what has become of the messages sent. -/
structure Flow (s : Exchange) (commands wire : List Bytes) : Prop where
  bytes : s.toClient = wire.flatMap serverSendLine
  plain : ∀ line ∈ wire, ∀ b ∈ line, Plain b
  pushed : s.pushed = (s.posted ++ wire.filter isTriggered).map serverSendLine
  phase : Phase s (wire.filter fun line => !isTriggered line) commands

/-- What every action keeps. -/
structure ExchangeOk (sock : Socket) (t : List ExchangeAction) (s : Exchange) : Prop where
  healthy : Healthy s.server.world
  isOpen : (s.server.sessions sock).isSome
  replies : ∀ out ∈ s.handled, ∀ line ∈ out.2, ReplyLine line
  flow : ∃ wire, Flow s (issued t) wire

section Steps

variable {s : Exchange} {commands wire : List Bytes}

theorem Flow.call {c : ClientCommand} (h : Flow s commands wire) (hmain : s.main = .idle)
    (hlength : c.text.length ≤ recvBufSize) :
    Flow { s with responseQ := [], main := .sending c } (commands ++ [c.text]) wire := by
  refine ⟨h.bytes, h.plain, h.pushed, ?_⟩
  cases h.phase with
  | quiet _ hserver hunsent hreplies _ hdone hissued =>
      exact .called rfl hlength hserver hunsent hreplies rfl hdone (by rw [hissued])
  | called hmain' | sent hmain' | answered hmain' => cases hmain.symm.trans hmain'

theorem Flow.send {c : ClientCommand} (h : Flow s commands wire)
    (hmain : s.main = .sending c) :
    Flow { s with toServer := s.toServer ++ clientSendLine c.text, main := .reading c [] }
      commands wire := by
  refine ⟨h.bytes, h.plain, h.pushed, ?_⟩
  cases h.phase with
  | called hmain' hlength hserver hunsent hreplies hqueue hdone hissued =>
      obtain rfl := MainThread.sending.inj (hmain.symm.trans hmain')
      exact .sent rfl hlength (by rw [hserver, List.nil_append]) hunsent
        hreplies hqueue hdone
        hissued
  | quiet hmain' | sent hmain' | answered hmain' => cases hmain.symm.trans hmain'

theorem Flow.reading {c : ClientCommand} {lines : List Bytes} {line : Bytes}
    {rest : List Bytes} (h : Flow s commands wire) (hmain : s.main = .reading c lines)
    (hqueue : s.responseQ = line :: rest) :
    s.toServer = [] ∧ commands = s.handled.map Prod.fst ∧ ∃ reply,
      s.handled = s.returned ++ [(c.text, reply)] ∧
      reply = lines ++ line :: (rest ++ ((wire.filter fun line => !isTriggered line) ++
        s.unsent)) ∧
      Complete c.expectEnd reply ∧ ∀ line ∈ reply, ReplyLine line := by
  cases h.phase with
  | @answered c' lines' reply hmain' hserver hhandled hreply hmore hcomplete
      hlines hissued =>
      obtain ⟨rfl, rfl⟩ := MainThread.reading.inj (hmain.symm.trans hmain')
      rw [hqueue, List.cons_append] at hreply
      exact ⟨hserver, hissued, reply, hhandled, hreply, hcomplete, hlines⟩
  | sent _ _ _ _ _ hqueue' => cases hqueue.symm.trans hqueue'
  | quiet hmain' | called hmain' => cases hmain.symm.trans hmain'

theorem Flow.finish {c : ClientCommand} {lines : List Bytes} {line : Bytes}
    {rest : List Bytes} (h : Flow s commands wire) (hmain : s.main = .reading c lines)
    (hqueue : s.responseQ = line :: rest) (hstops : stops c.expectEnd line = true) :
    Flow { s with
      responseQ := rest, main := .idle,
      returned := s.returned ++ [(c.text, lines ++ [line])] } commands wire := by
  obtain ⟨hserver, hissued, reply, hhandled, rfl, hcomplete, -⟩ := h.reading hmain hqueue
  have hafter := hcomplete.stops_iff.mp hstops
  obtain ⟨hrest, hafter'⟩ := List.append_eq_nil_iff.mp hafter
  obtain ⟨hreplies, hunsent⟩ := List.append_eq_nil_iff.mp hafter'
  refine ⟨h.bytes, h.plain, h.pushed,
    .quiet rfl hserver hunsent hreplies hrest ?_ hissued⟩
  rw [hhandled, hafter]

theorem Flow.read {c : ClientCommand} {lines : List Bytes} {line : Bytes}
    {rest : List Bytes} (h : Flow s commands wire) (hmain : s.main = .reading c lines)
    (hqueue : s.responseQ = line :: rest) (hstops : stops c.expectEnd line = false) :
    Flow { s with responseQ := rest, main := .reading c (lines ++ [line]) }
    commands wire := by
  obtain ⟨hserver, hissued, reply, hhandled, rfl, hcomplete, hlines⟩ :=
    h.reading hmain hqueue
  refine ⟨h.bytes, h.plain, h.pushed,
    .answered rfl hserver hhandled ?_ (fun hnil => ?_) hcomplete hlines hissued⟩
  · rw [List.append_assoc, List.singleton_append]
  · rw [hcomplete.stops_iff.mpr hnil] at hstops
    cases hstops

/-- A line the session has still to send belongs to the reply in progress. -/
theorem Flow.answer {resp : Bytes} {rest : List Bytes} (h : Flow s commands wire)
    (hunsent : s.unsent = resp :: rest) :
    Flow { s with unsent := rest, toClient := s.toClient ++ serverSendLine resp }
      commands (wire ++ [resp]) := by
  cases h.phase with
  | @answered c lines reply hmain hserver hhandled hreply _ hcomplete hlines hissued =>
      rw [hunsent] at hreply
      obtain ⟨hplain, htriggered⟩ := hlines resp (by rw [hreply]; simp)
      have hreplies : ((wire ++ [resp]).filter fun line => !isTriggered line) =
          (wire.filter fun line => !isTriggered line) ++ [resp] := by
        simp [List.filter_append, htriggered]
      refine ⟨?_, ?_, ?_, ?_⟩
      · rw [List.flatMap_append, ← h.bytes, List.flatMap_singleton]
      · exact List.forall_mem_append.mpr ⟨h.plain, List.forall_mem_singleton.mpr hplain⟩
      · rw [List.filter_append, List.filter_singleton, htriggered]
        exact h.pushed.trans (by simp)
      · refine .answered hmain hserver hhandled ?_ ?_ hcomplete hlines hissued
        · rw [hreplies, hreply]
          simp
        · rw [hreplies]
          simp
  | quiet _ _ hunsent' | called _ _ _ hunsent' | sent _ _ _ hunsent' =>
      cases hunsent.symm.trans hunsent'

/-- A line the session receives is the command in progress. -/
theorem Flow.received {line rest : Bytes} (h : Flow s commands wire)
    (hrecv : serverRecvLine [] s.toServer = some (line, rest)) :
    ∃ c, s.main = .reading c [] ∧ line = c.text ∧ rest = [] ∧ s.unsent = [] ∧
      (wire.filter fun line => !isTriggered line) = [] ∧ s.responseQ = [] ∧
      s.returned = s.handled ∧ commands = s.handled.map Prod.fst ++ [c.text] := by
  cases h.phase with
  | @sent c hmain hlength hserver hunsent hreplies hqueue hdone hissued =>
      rw [hserver, serverRecvLine_text hlength] at hrecv
      obtain ⟨rfl, rfl⟩ := Prod.mk.inj (Option.some.inj hrecv)
      exact ⟨c, hmain, rfl, rfl, hunsent, hreplies, hqueue, hdone, hissued⟩
  | quiet _ hserver | called _ _ hserver | answered _ hserver =>
      rw [hserver] at hrecv
      cases hrecv

theorem Flow.dispatch {line rest : Bytes} {server : Server} {reply : Reply}
    (h : Flow s commands wire) (hrecv : serverRecvLine [] s.toServer = some (line, rest))
    (hreply : ∀ c : ClientCommand, line = c.text →
      Complete c.expectEnd reply.lines ∧ ∀ line ∈ reply.lines, ReplyLine line) :
    Flow { s with
      server := server, toServer := rest, unsent := reply.lines,
      handled := s.handled ++ [(line, reply.lines)] } commands wire := by
  obtain ⟨c, hmain, rfl, rfl, -, hreplies, hqueue, hdone, hissued⟩ := h.received hrecv
  obtain ⟨hcomplete, hlines⟩ := hreply c rfl
  have hall : s.responseQ ++
      ((wire.filter fun line => !isTriggered line) ++ reply.lines) =
      reply.lines := by
    rw [hqueue, hreplies, List.nil_append, List.nil_append]
  refine ⟨h.bytes, h.plain, h.pushed,
    .answered hmain rfl (by rw [hdone]) hall.symm ?_ hcomplete hlines ?_⟩
  · rw [hall]
    obtain ⟨body, last, hlast, -⟩ := hcomplete
    rw [hlast]
    simp
  · rw [hissued, List.map_append, List.map_singleton]

theorem Flow.post {line : Bytes} (h : Flow s commands (line :: wire))
    (htriggered : isTriggered line = true) :
    Flow { s with toClient := wire.flatMap serverSendLine, posted := s.posted ++ [line] }
      commands wire := by
  have hreplies : ((line :: wire).filter fun line => !isTriggered line) =
      wire.filter fun line => !isTriggered line :=
    List.filter_cons_of_neg (by simp [htriggered])
  refine ⟨rfl, (List.forall_mem_cons.mp h.plain).2, ?_, ?_⟩
  · rw [h.pushed, List.filter_cons_of_pos htriggered, List.append_cons]
  · rw [← hreplies]
    exact h.phase.congr rfl rfl rfl rfl rfl rfl

/-- A line that is not posted belongs to the reply in progress. -/
theorem Flow.queue {line : Bytes} (h : Flow s commands (line :: wire))
    (htriggered : isTriggered line = false) :
    Flow { s with
      toClient := wire.flatMap serverSendLine, responseQ := s.responseQ ++ [line] }
      commands wire := by
  have hfirst : ((line :: wire).filter fun line => !isTriggered line) =
      line :: wire.filter fun line => !isTriggered line :=
    List.filter_cons_of_pos (by simp [htriggered])
  have hphase := h.phase
  rw [hfirst] at hphase
  refine ⟨rfl, (List.forall_mem_cons.mp h.plain).2, ?_, ?_⟩
  · rw [h.pushed, List.filter_cons_of_neg (by simp [htriggered])]
  · cases hphase with
    | answered hmain hserver hhandled hreply _ hcomplete hlines hissued =>
        refine .answered hmain hserver hhandled ?_ ?_ hcomplete hlines hissued
        · rw [hreply, List.append_assoc]
          rfl
        · simp
    | quiet _ _ _ hreplies | called _ _ _ _ hreplies | sent _ _ _ _ hreplies =>
        cases hreplies

theorem Flow.push {task : NotifyTask} (h : Flow s commands wire)
    (htask : SendsPush task) :
    ∃ line, Flow { s with
      toClient := s.toClient ++ task.msg, pushed := s.pushed ++ [task.msg] }
      commands (wire ++ [line]) := by
  obtain ⟨line, hmsg, htriggered, hplain⟩ := htask
  have hposted : isTriggered line = true := startsWith_iff.mpr htriggered
  refine ⟨line, ?_, ?_, ?_, ?_⟩
  · rw [List.flatMap_append, ← h.bytes, List.flatMap_singleton, hmsg]
    rfl
  · exact List.forall_mem_append.mpr ⟨h.plain, List.forall_mem_singleton.mpr hplain⟩
  · rw [List.filter_append, List.filter_singleton, hposted, ← List.append_assoc,
      List.map_append, h.pushed, hmsg]
    rfl
  · rw [List.filter_append, List.filter_singleton, hposted, Bool.not_true, cond_false,
      List.append_nil]
    exact h.phase.congr rfl rfl rfl rfl rfl rfl

end Steps

theorem issued_concat (t : List ExchangeAction) (a : ExchangeAction) :
    issued (t ++ [a]) = issued t ++ a.command := by
  rw [issued, List.flatMap_append, List.flatMap_singleton]
  rfl

theorem issued_of_quiet (t : List ExchangeAction) (a : ExchangeAction)
    (h : a.command = []) : issued (t ++ [a]) = issued t := by
  rw [issued_concat, h, List.append_nil]

/-- What the server makes of a command that it survives. -/
theorem reply_of_serve {sock : Socket} {line : Bytes} {s s' : Server} {reply : Reply}
    (h : Healthy s.world) (hserve : serve exec s (.line sock line) = some s')
    (hreply : s.reply exec sock line = some reply) :
    (s'.sessions sock).isSome ∧ ∀ c : ClientCommand, line = c.text →
      Complete c.expectEnd reply.lines ∧ ∀ line ∈ reply.lines, ReplyLine line := by
  unfold Server.reply at hreply
  simp only [serve] at hserve
  cases hself : s.sessions sock with
  | none =>
      rw [hself] at hreply
      cases hreply
  | some self =>
      rw [hself] at hserve hreply
      obtain rfl := Option.some.inj hreply
      obtain ⟨hfit, hserve⟩ := Option.ite_none_left_eq_some.mp hserve
      obtain rfl := Option.some.inj hserve
      refine ⟨by simp, ?_⟩
      rintro c rfl
      exact reply_complete h.db self c (Bool.eq_false_iff.mpr hfit)

theorem ExchangeOk.step {sock : Socket} {t : List ExchangeAction} {s s' : Exchange}
    {a : ExchangeAction} (h : ExchangeOk sock t s) (hstep : ExchangeStep sock s a s') :
    ExchangeOk sock (t ++ [a]) s' := by
  obtain ⟨hhealthy, hopen, hreplies, wire, hflow⟩ := h
  cases hstep with
  | @call c hmain hlength =>
      refine ⟨hhealthy, hopen, hreplies, wire, ?_⟩
      rw [issued_concat]
      exact hflow.call hmain hlength
  | send hmain =>
      refine ⟨hhealthy, hopen, hreplies, wire, ?_⟩
      rw [issued_of_quiet t .main rfl]
      exact hflow.send hmain
  | finish hmain hqueue hstops =>
      refine ⟨hhealthy, hopen, hreplies, wire, ?_⟩
      rw [issued_of_quiet t .main rfl]
      exact hflow.finish hmain hqueue hstops
  | read hmain hqueue hstops =>
      refine ⟨hhealthy, hopen, hreplies, wire, ?_⟩
      rw [issued_of_quiet t .main rfl]
      exact hflow.read hmain hqueue hstops
  | @answer resp rest hunsent =>
      refine ⟨hhealthy, hopen, hreplies, wire ++ [resp], ?_⟩
      rw [issued_of_quiet t .session rfl]
      exact hflow.answer hunsent
  | skip _ hrecv =>
      obtain ⟨c, -, hnil, -⟩ := hflow.received hrecv
      exact absurd hnil.symm c.text_ne_nil
  | dispatch _ hrecv _ hserve hreply =>
      obtain ⟨hopen', hcomplete⟩ := reply_of_serve hhealthy hserve hreply
      obtain ⟨c, -, hline, -⟩ := hflow.received hrecv
      refine ⟨hhealthy.serve hserve, hopen', ?_, wire, ?_⟩
      · refine List.forall_mem_append.mpr ⟨hreplies, ?_⟩
        exact List.forall_mem_singleton.mpr (hcomplete c hline).2
      · rw [issued_of_quiet t .session rfl]
        exact hflow.dispatch hrecv hcomplete
  | post hrecv htriggered =>
      rw [hflow.bytes] at hrecv
      obtain ⟨wire', rfl, rfl⟩ := wire_of_recv hflow.plain hrecv
      refine ⟨hhealthy, hopen, hreplies, wire', ?_⟩
      rw [issued_of_quiet t .receiver rfl]
      exact hflow.post htriggered
  | queue hrecv htriggered =>
      rw [hflow.bytes] at hrecv
      obtain ⟨wire', rfl, rfl⟩ := wire_of_recv hflow.plain hrecv
      refine ⟨hhealthy, hopen, hreplies, wire', ?_⟩
      rw [issued_of_quiet t .receiver rfl]
      exact hflow.queue htriggered
  | push htask =>
      obtain ⟨line, hflow'⟩ := hflow.push (hhealthy.tasks _ (List.mem_of_getElem? htask))
      refine ⟨hhealthy, hopen, hreplies, wire ++ [line], ?_⟩
      rw [issued_of_quiet t (.push _) rfl]
      exact hflow'
  | @other e server hspares hserve =>
      have hopen' : (server.sessions sock).isSome := by
        rw [sessions_of_spares hspares hserve]
        exact hopen
      refine ⟨hhealthy.serve hserve, hopen', hreplies, wire, hflow.bytes, hflow.plain,
        hflow.pushed, ?_⟩
      rw [issued_of_quiet t (.other e) rfl]
      exact hflow.phase.congr rfl rfl rfl rfl rfl rfl

/-! ## Every command returns -/

/-- Steps that deal with the command in progress. -/
def ExchangeAction.own : ExchangeAction → Prop
  | .main | .session | .receiver => True
  | _ => False

/-- Steps of the three threads lead to the end of `SendCommand`. -/
def Finishes (sock : Socket) : Exchange → Prop :=
  (exchange sock).CanReach ExchangeAction.own fun s => s.main = .idle

variable {sock : Socket} {s s' : Exchange}

/-- Once the command is answered, its lines move from the session to the connection, to
the queue and to the main thread. -/
theorem finishes_answered {commands wire : List Bytes} {c : ClientCommand}
    {lines : List Bytes} (h : Flow s commands wire) (hmain : s.main = .reading c lines)
    (hserver : s.toServer = []) : Finishes sock s := by
  generalize hn : 3 * s.unsent.length + 2 * wire.length + s.responseQ.length = n
  induction n using Nat.strong_induction_on generalizing s wire lines with
  | h n ih =>
      cases hqueue : s.responseQ with
      | cons line rest =>
          cases hstops : stops c.expectEnd line with
          | true =>
              have hnext : (exchange sock).next s .main = some { s with
                  responseQ := rest, main := .idle,
                  returned := s.returned ++ [(c.text, lines ++ [line])] } := by
                simp [exchange, Exchange.stepMain, hmain, hqueue, hstops]
              exact .step (a := .main) trivial hnext (.here rfl)
          | false =>
              have hnext : (exchange sock).next s .main = some { s with
                  responseQ := rest, main := .reading c (lines ++ [line]) } := by
                simp [exchange, Exchange.stepMain, hmain, hqueue, hstops]
              refine .step (a := .main) trivial hnext ?_
              refine ih _ ?_ (h.read hmain hqueue hstops) rfl hserver rfl
              rw [← hn, hqueue]
              simp
      | nil =>
          cases wire with
          | cons line wire' =>
              have hrecv : clientRecvLine [] s.toClient =
                  some (line, wire'.flatMap serverSendLine) := by
                rw [h.bytes]
                exact clientRecvLine_wire (h.plain line List.mem_cons_self) wire'
              cases htriggered : isTriggered line with
              | true =>
                  have hnext : (exchange sock).next s .receiver = some { s with
                      toClient := wire'.flatMap serverSendLine,
                      posted := s.posted ++ [line] } := by
                    simp [exchange, Exchange.stepReceiver, hrecv, htriggered]
                  refine .step (a := .receiver) trivial hnext ?_
                  refine ih _ ?_ (h.post htriggered) hmain hserver rfl
                  rw [← hn, hqueue]
                  simp
              | false =>
                  have hnext : (exchange sock).next s .receiver = some { s with
                      toClient := wire'.flatMap serverSendLine,
                      responseQ := s.responseQ ++ [line] } := by
                    simp [exchange, Exchange.stepReceiver, hrecv, htriggered]
                  refine .step (a := .receiver) trivial hnext ?_
                  refine ih _ ?_ (h.queue htriggered) hmain hserver rfl
                  rw [← hn, hqueue]
                  simp only [List.length_append, List.length_cons, List.length_nil]
                  omega
          | nil =>
              cases hunsent : s.unsent with
              | cons resp rest =>
                  have hnext : (exchange sock).next s .session = some { s with
                      unsent := rest, toClient :=
                        s.toClient ++ serverSendLine resp } := by
                    simp [exchange, Exchange.stepSession, hunsent]
                  refine .step (a := .session) trivial hnext ?_
                  refine ih _ ?_ (h.answer hunsent) hmain hserver rfl
                  rw [← hn, hunsent]
                  simp only [List.length_append, List.length_cons, List.length_nil]
                  omega
              | nil =>
                  -- the reply is not complete yet, so a line of it is somewhere
                  exfalso
                  cases h.phase with
                  | answered _ _ _ _ hmore =>
                      rw [hqueue, hunsent] at hmore
                      exact hmore rfl
                  | sent _ hlength hserver' =>
                      have hrecv := serverRecvLine_text hlength
                      rw [← hserver', hserver] at hrecv
                      cases hrecv
                  | quiet hmain' | called hmain' => cases hmain.symm.trans hmain'

/-- The server answers a command whose reply fits. -/
theorem serve_of_fits {server : Server} {line : Bytes}
    (hopen : (server.sessions sock).isSome)
    (hfit : ¬ Overflows server (.line sock line)) :
    ∃ server' reply, serve exec server (.line sock line) = some server' ∧
      server.reply exec sock line = some reply := by
  obtain ⟨self, hself⟩ := Option.isSome_iff_exists.mp hopen
  have hgoes : ¬ (run exec (dispatch self line) server.world).1.2.ended = true :=
    fun hended => hfit ⟨self, hself, hended⟩
  refine ⟨⟨(run exec (dispatch self line) server.world).2,
      Function.update server.sessions sock
    (some (run exec (dispatch self line) server.world).1.1)⟩,
    (run exec (dispatch self line) server.world).1.2, ?_, ?_⟩
  · simp only [serve, hself, if_neg hgoes]
  · simp only [Server.reply, hself, Option.map_some]

theorem finishes_sent {commands wire : List Bytes} {c : ClientCommand}
    (hhealthy : Healthy s.server.world) (hopen : (s.server.sessions sock).isSome)
    (h : Flow s commands wire) (hmain : s.main = .reading c [])
    (hlength : c.text.length ≤ recvBufSize) (hserver : s.toServer = clientSendLine c.text)
    (hunsent : s.unsent = []) (hfit : ¬ Overflows s.server (.line sock c.text)) :
    Finishes sock s := by
  have hrecv : serverRecvLine [] s.toServer = some (c.text, []) := by
    rw [hserver]
    exact serverRecvLine_text hlength
  obtain ⟨server', reply, hserve, hreply⟩ := serve_of_fits hopen hfit
  have hnext : (exchange sock).next s .session = some { s with
      server := server', toServer := [], unsent := reply.lines,
      handled := s.handled ++ [(c.text, reply.lines)] } := by
    simp [exchange, Exchange.stepSession, hunsent, hrecv, c.text_ne_nil, hserve, hreply]
  refine .step (a := .session) trivial hnext ?_
  exact finishes_answered (h.dispatch hrecv (reply_of_serve hhealthy hserve hreply).2)
    hmain rfl

/-- Every command in progress can finish, unless its reply is still to be printed and does
not fit. -/
theorem ExchangeOk.finishes {t : List ExchangeAction} (h : ExchangeOk sock t s)
    (hmain : s.main ≠ .idle) :
    Finishes sock s ∨ ∃ c, (s.main = .sending c ∨ s.main = .reading c []) ∧
      s.returned = s.handled ∧ Overflows s.server (.line sock c.text) := by
  obtain ⟨hhealthy, hopen, -, wire, hflow⟩ := h
  cases hflow.phase with
  | quiet hidle => exact absurd hidle hmain
  | @called c hcalled hlength hserver hunsent _ _ hdone =>
      by_cases hfit : Overflows s.server (.line sock c.text)
      · exact .inr ⟨c, .inl hcalled, hdone, hfit⟩
      · have hnext : (exchange sock).next s .main = some { s with
            toServer := s.toServer ++ clientSendLine c.text, main := .reading c [] } := by
          simp [exchange, Exchange.stepMain, hcalled]
        refine .inl (.step (a := .main) trivial hnext ?_)
        exact finishes_sent hhealthy hopen (hflow.send hcalled) rfl hlength
          (by rw [hserver, List.nil_append]) hunsent hfit
  | @sent c hreading hlength hserver hunsent _ _ hdone =>
      by_cases hfit : Overflows s.server (.line sock c.text)
      · exact .inr ⟨c, .inr hreading, hdone, hfit⟩
      · exact .inl
          (finishes_sent hhealthy hopen hflow hreading hlength hserver hunsent hfit)
  | answered hreading hserver => exact .inl (finishes_answered hflow hreading hserver)

/-! ## The result -/

theorem exchangeOk_of_run {server : Server} {t : List ExchangeAction}
    (hhealthy : Healthy server.world) (hopen : (server.sessions sock).isSome)
    (h : (exchange sock).AnyRun (.start server) t s) : ExchangeOk sock t s := by
  induction h with
  | nil =>
      refine ⟨hhealthy, hopen, List.forall_mem_nil _, [], rfl,
        List.forall_mem_nil _, rfl, ?_⟩
      exact .quiet rfl rfl rfl rfl rfl rfl rfl
  | snoc _ hnext _ ih => exact ih.step (step_of_exchange hnext)

/-- What has been returned is what has been handled, but for a reply in progress. -/
theorem Phase.returned_prefix {replies commands : List Bytes}
    (h : Phase s replies commands) : s.returned <+: s.handled := by
  cases h with
  | quiet _ _ _ _ _ hdone | called _ _ _ _ _ _ hdone | sent _ _ _ _ _ _ hdone =>
      rw [hdone]
  | answered _ _ hhandled => exact ⟨_, hhandled.symm⟩

/-- On a connection of a server that has run from a new database, in every interleaving of
the window's commands with messages of the notification worker and with everything else
the server does:
every `SendCommand` that has returned has returned the lines the handler of its command
produced, the commands in order, and none of them is a TRIGGERED line;
when no `SendCommand` is in progress, all commands issued have returned and no line of a
reply is left over, in the queue, on the connection or with the session;
every TRIGGERED message is posted once, in order, or still on the connection;
and a `SendCommand` in progress can always come back, unless the reply to its command has
still to be printed and does not fit its buffer. -/
theorem sendCommand_returns_reply {clock : ℕ → LocalTime} {marketData : Bool}
    {history : List Event} {server : Server} {t : List ExchangeAction}
    (hstart : serveAll exec (.off .created clock) (.startUp marketData :: history) =
      some server)
    (hopen : (server.sessions sock).isSome)
    (h : (exchange sock).AnyRun (.start server) t s) :
    (s.returned <+: s.handled ∧
      ∀ out ∈ s.returned, ∀ line ∈ out.2, isTriggered line = false) ∧
    (s.main = .idle → s.returned = s.handled ∧ s.returned.map Prod.fst = issued t ∧
      s.responseQ = [] ∧ s.unsent = [] ∧
      ∃ wire : List Bytes, s.toClient = wire.flatMap serverSendLine ∧
        ∀ line ∈ wire, isTriggered line = true) ∧
    (s.posted.map serverSendLine <+: s.pushed ∧
      (s.toClient = [] → s.posted.map serverSendLine = s.pushed)) ∧
    (s.main ≠ .idle → Finishes sock s ∨
      ∃ c, (s.main = .sending c ∨ s.main = .reading c []) ∧ s.returned = s.handled ∧
        Overflows s.server (.line sock c.text)) := by
  have hok := exchangeOk_of_run (healthy_of_history hstart) hopen h
  obtain ⟨wire, hflow⟩ := hok.flow
  refine ⟨⟨hflow.phase.returned_prefix, ?_⟩, fun hidle => ?_, ⟨?_, fun hempty => ?_⟩,
    hok.finishes⟩
  · intro out hout line hline
    exact (hok.replies out (hflow.phase.returned_prefix.subset hout) line hline).2
  · cases hflow.phase with
    | quiet _ _ hunsent hreplies hqueue hdone hissued =>
        refine ⟨hdone, by rw [hdone, hissued], hqueue, hunsent, wire, hflow.bytes, ?_⟩
        intro line hline
        by_contra hother
        have hmem : line ∈ wire.filter fun line => !isTriggered line :=
          List.mem_filter.mpr ⟨hline, by simpa using hother⟩
        rw [hreplies] at hmem
        cases hmem
    | called hmain' | sent hmain' | answered hmain' => cases hidle.symm.trans hmain'
  · rw [hflow.pushed, List.map_append]
    exact List.prefix_append _ _
  · rw [hflow.pushed, wire_eq_nil (hflow.bytes.symm.trans hempty), List.filter_nil,
      List.append_nil]

/-- An alert of ann's has fired. -/
def firedAlert : List Event :=
  [.connect 7, .line 7 (ascii "REGISTER ann pw a@b"), .line 7 (ascii "LOGIN ann pw"),
    .line 7 (ascii "ADD_PRICE ann rb2609 3500 0"), .tick (cstr (ascii "rb2609")) 3600]

/-- She asks for her alerts, and the message comes in between the lines of the reply. -/
def queryWithPush : List ExchangeAction :=
  [.call (.query annName (-1)), .main, .session, .session, .push 0,
    .session, .receiver, .receiver, .main, .receiver, .main]

set_option maxRecDepth 10000 in
/-- The reply comes back without the message. -/
theorem query_returns_its_reply :
    ∃ server s, (exchange 7).AnyRun (.start server) queryWithPush s ∧
      s.returned = s.handled ∧ s.returned.map Prod.fst = [ascii "QUERY ann -1"] ∧
      s.posted.map serverSendLine = s.pushed ∧ s.pushed.length = 1 := by
  have hserver : (serveAll exec (.off .created fun _ => ⟨2025, 6, 0, 8, 55, 0⟩)
      (.startUp true :: firedAlert)).map (fun server => (server.sessions 7).isSome) =
        some true := by decide +kernel
  have hstate : (serveAll exec (.off .created fun _ => ⟨2025, 6, 0, 8, 55, 0⟩)
      (.startUp true :: firedAlert)).map (fun server =>
        ((exchange 7).follow (.start server) queryWithPush).map fun s =>
          (s.main, s.toClient, s.pushed.length)) = some (some (.idle, [], 1)) := by
    decide +kernel
  obtain ⟨server, hstart, hopen⟩ := Option.map_eq_some_iff.mp hserver
  rw [hstart] at hstate
  obtain ⟨s, hs, hparts⟩ := Option.map_eq_some_iff.mp (Option.some.inj hstate)
  simp only [Prod.mk.injEq] at hparts
  obtain ⟨hidle, hempty, hlength⟩ := hparts
  have hrun := Machine.run_of_follow hs
  obtain ⟨-, hquiet, ⟨-, hposted⟩, -⟩ := sendCommand_returns_reply hstart hopen hrun
  obtain ⟨hdone, hissued, -⟩ := hquiet hidle
  refine ⟨server, s, hrun, hdone, ?_, hposted hempty, hlength⟩
  rw [hissued]
  decide +kernel

end CloudAlert
