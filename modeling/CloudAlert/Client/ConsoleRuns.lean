import CloudAlert.Client.Console

/-!
# What the console prints

Whatever happens, the messages of the notification worker are printed once each and in
order (`console_alerts`). The lines of a reply are another matter: a command that is given
up after six seconds leaves its reply on the connection, and that reply is printed for the
next command unless it has come before the menu is shown. `console_in_step` says that the
console is in step again once nothing is on the way: its runs are those of `exchange` as
long as no command is given up, so every command is printed with its own reply.
-/

namespace CloudAlert

open Program

/-! ## Notifications -/

/-- The TRIGGERED line that is printed. -/
def ConsoleOutput.alertLine : ConsoleOutput → Option Bytes
  | .alert line => some line
  | _ => none

/-- The line of a reply that is printed. -/
def ConsoleOutput.replyLine : ConsoleOutput → Option Bytes
  | .reply line => some line
  | _ => none

namespace Console

/-- The notifications printed. -/
def alerts (s : Console) : List Bytes := s.printed.filterMap ConsoleOutput.alertLine

/-- The lines of replies printed. -/
def replies (s : Console) : List Bytes := s.printed.filterMap ConsoleOutput.replyLine

end Console

theorem filterMap_noResponse (c : ClientCommand) :
    (Console.noResponse c).filterMap ConsoleOutput.alertLine = [] ∧
      (Console.noResponse c).filterMap ConsoleOutput.replyLine = [] := by
  unfold Console.noResponse
  split <;> exact ⟨rfl, rfl⟩

theorem filterMap_remark (c : ClientCommand) (line : Bytes) :
    (Console.remark c line).filterMap ConsoleOutput.alertLine = [] ∧
      (Console.remark c line).filterMap ConsoleOutput.replyLine = [] := by
  unfold Console.remark
  split
  · split <;> exact ⟨rfl, rfl⟩
  · exact ⟨rfl, rfl⟩

theorem filterMap_alert (lines : List Bytes) :
    (lines.map ConsoleOutput.alert).filterMap ConsoleOutput.alertLine = lines ∧
      (lines.map ConsoleOutput.alert).filterMap ConsoleOutput.replyLine = [] := by
  rw [List.filterMap_map, List.filterMap_map]
  refine ⟨?_, List.filterMap_eq_nil_iff.mpr fun _ _ => rfl⟩
  exact (List.filterMap_congr fun _ _ => rfl).trans List.filterMap_some

theorem filterMap_text (out : List String) :
    (out.map ConsoleOutput.text).filterMap ConsoleOutput.alertLine = [] ∧
      (out.map ConsoleOutput.text).filterMap ConsoleOutput.replyLine = [] := by
  rw [List.filterMap_map, List.filterMap_map]
  exact ⟨List.filterMap_eq_nil_iff.mpr fun _ _ => rfl,
    List.filterMap_eq_nil_iff.mpr fun _ _ => rfl⟩

/-- The lines on the connection, and what has become of the messages sent. -/
structure ConsoleOk (sock : Socket) (s : Console) (wire : List Bytes) : Prop where
  healthy : Healthy s.server.world
  isOpen : (s.server.sessions sock).isSome
  unsent : ∀ line ∈ s.unsent, ReplyLine line
  bytes : s.toClient = wire.flatMap serverSendLine
  plain : ∀ line ∈ wire, ∀ b ∈ line, Plain b
  pushed : s.pushed =
    (s.alerts ++ (s.recvQ ++ wire).filter isTriggered).map serverSendLine

/-- What the server makes of a line that it survives. -/
theorem kind_of_serve {sock : Socket} {line : Bytes} {s s' : Server} {reply : Reply}
    (h : Healthy s.world) (hserve : serve exec s (.line sock line) = some s')
    (hreply : s.reply exec sock line = some reply) :
    (s'.sessions sock).isSome ∧ reply.ended = false ∧
      (AnswersList line ∧ ListReply reply ∨ ¬ AnswersList line ∧ StatusReply reply) := by
  have hexec : ∀ call w, TokenCall call → PlainTexts w.db →
      PlainTexts (exec call w).2.db ∧ PlainAnswer call (exec call w).1 :=
    fun call _ hc hw => ⟨hw.after hc, hw.answer call⟩
  unfold Server.reply at hreply
  simp only [serve] at hserve
  cases hself : s.sessions sock with
  | none =>
      rw [hself] at hreply
      cases hreply
  | some self =>
      rw [hself] at hserve hreply
      obtain rfl := Option.some.inj hreply
      obtain ⟨hfit, hserve⟩ := Option.ite_none_left_eq_some.mp hserve
      obtain rfl := Option.some.inj hserve
      refine ⟨by simp, Bool.eq_false_iff.mpr hfit, ?_⟩
      by_cases hlist : AnswersList line
      · exact .inl ⟨hlist, ((dispatch_lists self line hlist).run _ hexec h.db).2⟩
      · exact .inr ⟨hlist, ((dispatch_saysStatus self line hlist).run _ hexec h.db).2⟩

section Steps

variable {sock : Socket} {s s' : Console} {wire : List Bytes}

theorem ConsoleOk.prints {out : List ConsoleOutput} {lines : List Bytes}
    (h : ConsoleOk sock s wire) (hserver : s'.server = s.server)
    (hunsent : s'.unsent = s.unsent) (hclient : s'.toClient = s.toClient)
    (hpushed : s'.pushed = s.pushed) (hprinted : s'.printed = s.printed ++ out)
    (hout : out.filterMap ConsoleOutput.alertLine = lines)
    (hqueue : s.recvQ.filter isTriggered = lines ++ s'.recvQ.filter isTriggered) :
    ConsoleOk sock s' wire := by
  refine ⟨hserver ▸ h.healthy, hserver ▸ h.isOpen, hunsent ▸ h.unsent, hclient ▸ h.bytes,
    h.plain, ?_⟩
  have halerts : s'.alerts = s.alerts ++ lines := by
    rw [Console.alerts, hprinted, List.filterMap_append, hout]
    rfl
  rw [hpushed, h.pushed, halerts, List.filter_append, List.filter_append, hqueue,
    List.append_assoc, List.append_assoc]

theorem ConsoleOk.congr (h : ConsoleOk sock s wire) (hserver : s'.server = s.server)
    (hunsent : s'.unsent = s.unsent) (hclient : s'.toClient = s.toClient)
    (hpushed : s'.pushed = s.pushed) (hprinted : s'.printed = s.printed)
    (hqueue : s'.recvQ = s.recvQ) : ConsoleOk sock s' wire := by
  have hnothing : s'.printed = s.printed ++ [] := hprinted.trans (List.append_nil _).symm
  exact h.prints hserver hunsent hclient hpushed hnothing rfl (by rw [hqueue]; rfl)

theorem ConsoleOk.push {task : NotifyTask} (h : ConsoleOk sock s wire)
    (htask : SendsPush task) : ∃ line, ConsoleOk sock { s with
      toClient := s.toClient ++ task.msg, pushed := s.pushed ++ [task.msg] }
      (wire ++ [line]) := by
  obtain ⟨line, hmsg, htriggered, hplain⟩ := htask
  have hposted : isTriggered line = true := startsWith_iff.mpr htriggered
  refine ⟨line, h.healthy, h.isOpen, h.unsent, ?_, ?_, ?_⟩
  · rw [List.flatMap_append, ← h.bytes, List.flatMap_singleton, hmsg]
    rfl
  · exact List.forall_mem_append.mpr ⟨h.plain, List.forall_mem_singleton.mpr hplain⟩
  · change s.pushed ++ [task.msg] = (s.alerts ++ (s.recvQ ++ (wire ++ [line])).filter
      isTriggered).map serverSendLine
    rw [← List.append_assoc, List.filter_append, List.filter_singleton, hposted,
      ← List.append_assoc, List.map_append, ← h.pushed, hmsg]
    rfl

theorem ConsoleOk.answer {resp : Bytes} {rest : List Bytes} (h : ConsoleOk sock s wire)
    (hunsent : s.unsent = resp :: rest) :
    ConsoleOk sock { s with
      unsent := rest, toClient := s.toClient ++ serverSendLine resp }
      (wire ++ [resp]) := by
  obtain ⟨⟨hplain, htriggered⟩, hrest⟩ := List.forall_mem_cons.mp (hunsent ▸ h.unsent)
  refine ⟨h.healthy, h.isOpen, hrest, ?_, ?_, ?_⟩
  · rw [List.flatMap_append, ← h.bytes, List.flatMap_singleton]
  · exact List.forall_mem_append.mpr ⟨h.plain, List.forall_mem_singleton.mpr hplain⟩
  · change s.pushed = (s.alerts ++ (s.recvQ ++ (wire ++ [resp])).filter isTriggered).map
      serverSendLine
    rw [← List.append_assoc, List.filter_append, List.filter_singleton, htriggered]
    exact h.pushed.trans (by simp)

theorem ConsoleOk.dispatch {line rest : Bytes} {server : Server} {reply : Reply}
    (h : ConsoleOk sock s wire)
    (hserve : serve exec s.server (.line sock line) = some server)
    (hreply : s.server.reply exec sock line = some reply) :
    ConsoleOk sock { s with
      server := server, toServer := rest, unsent := reply.lines,
      handled := s.handled ++ [(line, reply.lines)] } wire := by
  obtain ⟨hopen, hended, ⟨-, hkind⟩ | ⟨-, hkind⟩⟩ := kind_of_serve h.healthy hserve hreply
  · exact ⟨h.healthy.serve hserve, hopen, (hkind.complete hended).2, h.bytes,
      h.plain, h.pushed⟩
  · exact ⟨h.healthy.serve hserve, hopen, hkind.complete.2, h.bytes, h.plain, h.pushed⟩

theorem ConsoleOk.receive {line : Bytes} (h : ConsoleOk sock s (line :: wire)) :
    ConsoleOk sock { s with
      toClient := wire.flatMap serverSendLine, recvQ := s.recvQ ++ [line] } wire := by
  refine ⟨h.healthy, h.isOpen, h.unsent, rfl, (List.forall_mem_cons.mp h.plain).2, ?_⟩
  change s.pushed = (s.alerts ++ (s.recvQ ++ [line] ++ wire).filter isTriggered).map
    serverSendLine
  rw [← List.append_cons]
  exact h.pushed

theorem ConsoleOk.chosen {m : MenuChoice} (h : ConsoleOk sock s wire)
    (hchosen : Chosen s m s') : ConsoleOk sock s' wire := by
  cases hchosen with
  | asked | tooLong => exact h.congr rfl rfl rfl rfl rfl rfl
  | exit | back => exact h.prints rfl rfl rfl rfl rfl (filterMap_text [_]).1 rfl

theorem ConsoleOk.step {a : ConsoleAction} (h : ConsoleOk sock s wire)
    (hstep : ConsoleStep sock s a s') : ∃ wire', ConsoleOk sock s' wire' := by
  cases hstep with
  | drain =>
      exact ⟨wire,
        h.prints rfl rfl rfl rfl rfl (filterMap_alert _).1 (List.append_nil _).symm⟩
  | send | skip => exact ⟨wire, h.congr rfl rfl rfl rfl rfl rfl⟩
  | emptyLine _ hqueue =>
      refine ⟨wire, h.prints rfl rfl rfl rfl rfl (filterMap_noResponse _).1 ?_⟩
      rw [hqueue]
      rfl
  | alert _ hqueue htriggered =>
      refine ⟨wire, h.prints rfl rfl rfl rfl rfl (filterMap_alert [_]).1 ?_⟩
      rw [hqueue, List.filter_cons_of_pos htriggered]
      rfl
  | line _ hqueue htriggered =>
      refine ⟨wire, h.prints rfl rfl rfl rfl rfl (filterMap_remark _ _).1 ?_⟩
      rw [hqueue, List.filter_cons_of_neg (Bool.eq_false_iff.mp htriggered)]
      rfl
  | choose => exact ⟨wire, h.chosen (chosen_choose _ _)⟩
  | sendFails out =>
      exact ⟨wire, h.prints rfl rfl rfl rfl rfl (filterMap_text (_ :: out)).1 rfl⟩
  | timeout => exact ⟨wire, h.prints rfl rfl rfl rfl rfl (filterMap_noResponse _).1 rfl⟩
  | answer hunsent => exact ⟨_, h.answer hunsent⟩
  | dispatch _ _ _ hserve hreply => exact ⟨wire, h.dispatch hserve hreply⟩
  | receive hrecv =>
      rw [h.bytes] at hrecv
      obtain ⟨wire', rfl, rfl⟩ := wire_of_recv h.plain hrecv
      exact ⟨wire', h.receive⟩
  | push htask =>
      obtain ⟨line, hpush⟩ := h.push (h.healthy.tasks _ (List.mem_of_getElem? htask))
      exact ⟨_, hpush⟩
  | @other e server hspares hserve =>
      have hopen : (server.sessions sock).isSome := by
        rw [sessions_of_spares hspares hserve]
        exact h.isOpen
      exact ⟨wire, h.healthy.serve hserve, hopen, h.unsent, h.bytes, h.plain, h.pushed⟩

end Steps

theorem consoleOk_of_run {sock : Socket} {server : Server} {t : List ConsoleAction}
    {s : Console} (hhealthy : Healthy server.world)
    (hopen : (server.sessions sock).isSome)
    (h : (console sock).AnyRun (.start server) t s) : ∃ wire, ConsoleOk sock s wire := by
  induction h with
  | nil =>
      exact ⟨[], hhealthy, hopen, List.forall_mem_nil _, rfl, List.forall_mem_nil _, rfl⟩
  | snoc _ hnext _ ih =>
      obtain ⟨wire, hs⟩ := ih
      exact hs.step (step_of_console hnext)

/-- Every message of the notification worker is printed once or still to be printed, and
in the order they were sent, whatever is asked and given up meanwhile. -/
theorem console_alerts {sock : Socket} {clock : ℕ → LocalTime} {marketData : Bool}
    {history : List Event} {server : Server} {t : List ConsoleAction} {s : Console}
    (hstart : serveAll exec (.off .created clock) (.startUp marketData :: history) =
      some server)
    (hopen : (server.sessions sock).isSome)
    (h : (console sock).AnyRun (.start server) t s) :
    ∃ wire : List Bytes, s.toClient = wire.flatMap serverSendLine ∧
      (s.alerts ++ (s.recvQ ++ wire).filter isTriggered).map
      serverSendLine = s.pushed := by
  obtain ⟨wire, hs⟩ := consoleOk_of_run (healthy_of_history hstart) hopen h
  exact ⟨wire, hs.bytes, hs.pushed.symm⟩

/-- The message of the alert that has fired comes in while the console waits for the reply
to a login. -/
def loginWithPush : List ConsoleAction :=
  [.main, .choose (.login annName annPassword), .main, .session, .push 0,
    .session, .receiver, .receiver, .main, .main]

set_option maxRecDepth 10000 in
/-- The message is printed. -/
theorem console_alerts_login :
    ∃ server s, (console 7).AnyRun (.start server) loginWithPush s ∧ s.main = .draining ∧
      s.alerts.map serverSendLine = s.pushed ∧ s.pushed.length = 1 := by
  have hserver : (serveAll exec (.off .created fun _ => ⟨2025, 6, 0, 8, 55, 0⟩)
      (.startUp true :: firedAlert)).map (fun server => (server.sessions 7).isSome) =
        some true := by decide +kernel
  have hstate : (serveAll exec (.off .created fun _ => ⟨2025, 6, 0, 8, 55, 0⟩)
      (.startUp true :: firedAlert)).map (fun server =>
        ((console 7).follow (.start server) loginWithPush).map fun s =>
          (s.main, s.toClient, s.recvQ, s.pushed.length)) =
        some (some (.draining, [], [], 1)) := by
    decide +kernel
  obtain ⟨server, hstart, hopen⟩ := Option.map_eq_some_iff.mp hserver
  rw [hstart] at hstate
  obtain ⟨s, hs, hparts⟩ := Option.map_eq_some_iff.mp (Option.some.inj hstate)
  simp only [Prod.mk.injEq] at hparts
  obtain ⟨hmain, hempty, hqueue, hlength⟩ := hparts
  have hrun := Machine.run_of_follow hs
  obtain ⟨wire, hwire, halerts⟩ := console_alerts hstart hopen hrun
  obtain rfl := wire_eq_nil (hwire.symm.trans hempty)
  refine ⟨server, s, hrun, hmain, ?_, hlength⟩
  rw [← halerts, hqueue, List.append_nil, List.filter_nil, List.append_nil]

/-! ## Replies -/

/-- The console stops at the same lines as `SendCommand` does. -/
def StopsAlike (c : ClientCommand) (line : Bytes) : Prop :=
  line ≠ [] ∧ c.lastLine line = stops c.expectEnd line

theorem lastLine_of_isStatus (c : ClientCommand) {line : Bytes} (h : IsStatus line) :
    c.lastLine line = true := by
  unfold ClientCommand.lastLine
  rcases h.1 with hok | herr
  · simp [startsWith_iff.mpr hok]
  · simp [startsWith_iff.mpr herr]

theorem IsItem.lastLine {c : ClientCommand} {line : Bytes} (h : IsItem line)
    (hone : c.oneLine = false) : c.lastLine line = false := by
  have hother : startsWith (ascii "OK") line = false ∧
      startsWith (ascii "ERR") line = false ∧
      startsWith (ascii "END") line = false := by
    rcases h.1 with hitem | hitem
    · exact ⟨startsWith_other hitem (by decide) (by decide),
        startsWith_other hitem (by decide) (by decide),
        startsWith_other hitem (by decide) (by decide)⟩
    · exact ⟨startsWith_other hitem (by decide) (by decide),
        startsWith_other hitem (by decide) (by decide),
        startsWith_other hitem (by decide) (by decide)⟩
  obtain ⟨hok, herr, hend⟩ := hother
  have hne : line ≠ ascii "END" := by
    rintro rfl
    exact absurd hend (by decide)
  simp [ClientCommand.lastLine, hone, hne, hok, herr]

theorem stopsAlike_of_serve {sock : Socket} {c : ClientCommand} {s s' : Server}
    {reply : Reply} (h : Healthy s.world)
    (hserve : serve exec s (.line sock c.text) = some s')
    (hreply : s.reply exec sock c.text = some reply) :
    ∀ line ∈ reply.lines, StopsAlike c line := by
  have hstatus : ∀ line, IsStatus line → stops c.expectEnd line = true →
      StopsAlike c line :=
    fun line hline hstops => by
      refine ⟨?_, (lastLine_of_isStatus c hline).trans hstops.symm⟩
      rintro rfl
      exact absurd hline (by decide)
  obtain ⟨-, hended, ⟨hlist, hkind⟩ | ⟨hlist, resp, rfl, hresp⟩⟩ :=
    kind_of_serve h hserve hreply
  · have hexpect := c.answersList_iff.mp hlist
    have hone : c.oneLine = false := by
      cases c with
      | login | register => cases hexpect
      | _ => rfl
    rcases hkind hended with ⟨items, hlines, hitems⟩ | ⟨resp, hlines, herr, hplain⟩
    · rw [hlines]
      refine List.forall_mem_append.mpr ⟨fun line hline => ⟨?_, ?_⟩, ?_⟩
      · rintro rfl
        exact absurd (hitems _ hline).1 (by decide)
      · rw [hexpect, (hitems line hline).stops, (hitems line hline).lastLine hone]
      · exact List.forall_mem_singleton.mpr
          ⟨by decide, by simp [ClientCommand.lastLine, stops]⟩
    · rw [hlines]
      refine List.forall_mem_singleton.mpr (hstatus resp ⟨.inr herr, hplain⟩ ?_)
      simp [stops, startsWith_iff.mpr herr]
  · have hexpect : c.expectEnd = false :=
      Bool.eq_false_iff.mpr fun h => hlist (c.answersList_iff.mpr h)
    refine List.forall_mem_singleton.mpr (hstatus resp hresp ?_)
    rw [hexpect]
    exact hresp.stops

/-! ## In step -/

/-- What the main thread is doing in `exchange`. -/
def ConsoleMain.thread : ConsoleMain → MainThread
  | .sending c => .sending c
  | .reading c lines => .reading c lines
  | _ => .idle

/-- The lines of the reply in progress that have been printed. -/
def ConsoleMain.lines : ConsoleMain → List Bytes
  | .reading _ lines => lines
  | _ => []

/-- Nothing is on the way but notifications. -/
structure Console.Quiet (s : Console) : Prop where
  main : s.main = .draining
  toServer : s.toServer = []
  unsent : s.unsent = []
  onWay : ∃ wire : List Bytes, s.toClient = wire.flatMap serverSendLine ∧
    ∀ line ∈ wire, isTriggered line = true ∧ ∀ b ∈ line, Plain b

/-- No command is given up. -/
def ConsoleAction.onTime : ConsoleAction → Bool
  | .sendFails | .timeout => false
  | _ => true

/-- The console and `exchange` are at the same point since `s₀`. -/
structure InStep (s₀ s : Console) (t : List ExchangeAction) (e : Exchange) : Prop where
  server : e.server = s.server
  toServer : e.toServer = s.toServer
  unsent : e.unsent = s.unsent
  toClient : e.toClient = s.toClient
  main : e.main = s.main.thread
  queue : s.main ≠ .draining → e.responseQ = s.recvQ.filter fun line => !isTriggered line
  shape : ∀ out ∈ e.handled, ∀ c : ClientCommand, out.1 = c.text →
    ∀ line ∈ out.2, StopsAlike c line
  asked : s.asked = s₀.asked ++ issued t
  handled : s.handled = s₀.handled ++ e.handled
  returned : s.returned = s₀.returned ++ e.returned
  replies : s.replies = s₀.replies ++ (e.returned.flatMap Prod.snd ++ s.main.lines)

/-- The start of the exchange. -/
def Console.exchange (s : Console) (wire : List Bytes) : Exchange where
  server := s.server
  toServer := []
  unsent := []
  toClient := s.toClient
  responseQ := []
  posted := []
  main := .idle
  handled := []
  returned := []
  pushed := wire.map serverSendLine

theorem command_size {m : MenuChoice} {username : Field} {c : ClientCommand} {size : ℕ}
    (h : m.command username = some (c, size)) : size ≤ recvBufSize := by
  cases m with
  | invalid | unknown | exit => cases h
  | _ =>
      obtain ⟨-, rfl⟩ := Prod.mk.inj (Option.some.inj h)
      decide

section InStep

variable {sock : Socket} {s₀ s s' : Console} {t : List ExchangeAction} {e : Exchange}

theorem ne_draining {main : ConsoleMain} (hmain : s.main = main)
    (hne : main ≠ .draining) : s.main ≠ .draining := hmain ▸ hne

theorem follow_one {a : ExchangeAction} {e' : Exchange}
    (h : (exchange sock).next e a = some e') :
    (exchange sock).follow e [a] = some e' := by
  rw [Machine.follow, h]
  rfl

/-- No lines are left over while no command is in progress. -/
theorem ExchangeOk.queue_eq_nil (hok : ExchangeOk sock t e) (hidle : e.main = .idle) :
    e.responseQ = [] := by
  obtain ⟨wire, hflow⟩ := hok.flow
  cases hflow.phase with
  | quiet _ _ _ _ hqueue => exact hqueue
  | called hmain | sent hmain | answered hmain => cases hidle.symm.trans hmain

theorem Console.replies_of_print {out : List ConsoleOutput} {lines : List Bytes}
    (hprinted : s'.printed = s.printed ++ out)
    (hout : out.filterMap ConsoleOutput.replyLine = lines) :
    s'.replies = s.replies ++ lines := by
  rw [Console.replies, hprinted, List.filterMap_append, hout]
  rfl

/-- No action of `exchange` is needed. -/
theorem InStep.stays {out : List ConsoleOutput} (h : InStep s₀ s t e)
    (hserver : s'.server = s.server) (htoServer : s'.toServer = s.toServer)
    (hunsent : s'.unsent = s.unsent) (hclient : s'.toClient = s.toClient)
    (hmain : s'.main.thread = s.main.thread ∧ s'.main.lines = s.main.lines)
    (hqueue : s'.main ≠ .draining →
      e.responseQ = s'.recvQ.filter fun line => !isTriggered line)
    (hasked : s'.asked = s.asked) (hhandled : s'.handled = s.handled)
    (hreturned : s'.returned = s.returned) (hprinted : s'.printed = s.printed ++ out)
    (hout : out.filterMap ConsoleOutput.replyLine = []) :
    ∃ as e', (exchange sock).follow e as = some e' ∧ InStep s₀ s' (t ++ as) e' := by
  refine ⟨[], e, rfl, ?_⟩
  rw [List.append_nil]
  refine ⟨h.server.trans hserver.symm, h.toServer.trans htoServer.symm,
    h.unsent.trans hunsent.symm, h.toClient.trans hclient.symm, h.main.trans hmain.1.symm,
    hqueue, h.shape, hasked.trans h.asked, hhandled.trans h.handled,
    hreturned.trans h.returned, ?_⟩
  rw [Console.replies_of_print hprinted hout, List.append_nil, h.replies, hmain.2]

theorem InStep.chosen {m : MenuChoice} (h : InStep s₀ s t e) (hok : ExchangeOk sock t e)
    (hmain : s.main = .choosing) (hchosen : Chosen s m s') :
    ∃ as e', (exchange sock).follow e as = some e' ∧ InStep s₀ s' (t ++ as) e' := by
  have hidle : e.main = .idle := by
    rw [h.main, hmain]
    rfl
  have hqueue := h.queue (ne_draining hmain ConsoleMain.noConfusion)
  cases hchosen with
  | tooLong =>
      exact h.stays rfl rfl rfl rfl (by rw [hmain]; exact ⟨rfl, rfl⟩)
        (fun _ => hqueue) rfl rfl
        rfl (List.append_nil _).symm rfl
  | exit | back =>
      exact h.stays rfl rfl rfl rfl (by rw [hmain]; exact ⟨rfl, rfl⟩)
        (fun _ => hqueue) rfl rfl
        rfl rfl (filterMap_text [_]).2
  | @asked c size hcommand hfits =>
      have hlength : c.text.length ≤ recvBufSize :=
        (Nat.le_of_lt hfits).trans (command_size hcommand)
      have hnext : (exchange sock).next e (.call c) =
          some { e with responseQ := [], main := .sending c } := by
        simp [exchange, hidle, hlength]
      have hreplies := h.replies
      rw [hmain] at hreplies
      refine ⟨[.call c], _, follow_one hnext, { h with
        main := rfl
        queue := fun _ => (hok.queue_eq_nil hidle).symm.trans hqueue
        asked := ?_
        replies := hreplies }⟩
      rw [issued_concat, ← List.append_assoc, ← h.asked]
      rfl

theorem InStep.send {c : ClientCommand} (h : InStep s₀ s t e)
    (hmain : s.main = .sending c) :
    ∃ as e', (exchange sock).follow e as = some e' ∧ InStep s₀ { s with
      toServer := s.toServer ++ clientSendLine c.text, main :=
        .reading c [] } (t ++ as) e' := by
  have hthread : e.main = .sending c := by
    rw [h.main, hmain]
    rfl
  have hnext : (exchange sock).next e .main = some { e with
      toServer := e.toServer ++ clientSendLine c.text, main := .reading c [] } := by
    simp [exchange, Exchange.stepMain, hthread]
  have hreplies := h.replies
  rw [hmain] at hreplies
  refine ⟨[.main], _, follow_one hnext, { h with
    toServer := by rw [h.toServer]
    main := rfl
    queue := fun _ => h.queue (ne_draining hmain ConsoleMain.noConfusion)
    asked := ?_
    replies := hreplies }⟩
  rw [issued_of_quiet t .main rfl]
  exact h.asked

/-- The next line of the queue belongs to the reply in progress. -/
theorem InStep.stopsAlike {c : ClientCommand} {lines rest : List Bytes} {line : Bytes}
    (h : InStep s₀ s t e) (hok : ExchangeOk sock t e) (hmain : s.main = .reading c lines)
    (hqueue : s.recvQ = line :: rest) (htriggered : isTriggered line = false) :
    e.main = .reading c lines ∧
      e.responseQ = line :: (rest.filter fun line => !isTriggered line) ∧
      StopsAlike c line := by
  have hthread : e.main = .reading c lines := by
    rw [h.main, hmain]
    rfl
  have hline : e.responseQ = line :: rest.filter fun line => !isTriggered line := by
    rw [h.queue (ne_draining hmain ConsoleMain.noConfusion), hqueue]
    exact List.filter_cons_of_pos (by rw [htriggered]; rfl)
  obtain ⟨wire, hflow⟩ := hok.flow
  obtain ⟨-, -, reply, hhandled, hreply, -⟩ := hflow.reading hthread hline
  refine ⟨hthread, hline, h.shape (c.text, reply) ?_ c rfl line ?_⟩
  · rw [hhandled]
    simp
  · rw [hreply]
    simp

theorem InStep.line {c : ClientCommand} {lines rest : List Bytes} {line : Bytes}
    (h : InStep s₀ s t e) (hok : ExchangeOk sock t e) (hmain : s.main = .reading c lines)
    (hqueue : s.recvQ = line :: rest) (htriggered : isTriggered line = false) :
    ∃ as e', (exchange sock).follow e as = some e' ∧
      InStep s₀ ({ s with recvQ := rest }.takeLine c lines line) (t ++ as) e' := by
  obtain ⟨hthread, hline, -, hlast⟩ := h.stopsAlike hok hmain hqueue htriggered
  have hreplies : ({ s with recvQ := rest }.takeLine c lines line).replies =
      s₀.replies ++ (e.returned.flatMap Prod.snd ++ (lines ++ [line])) := by
    have hout : (.reply line :: Console.remark c line).filterMap ConsoleOutput.replyLine =
        [line] := congrArg (line :: ·) (filterMap_remark c line).2
    rw [Console.replies_of_print (s := s) rfl hout, h.replies, hmain]
    simp [ConsoleMain.lines]
  have hasked := h.asked
  rw [← issued_of_quiet t .main rfl] at hasked
  cases hstops : stops c.expectEnd line with
  | true =>
      rw [hstops] at hlast
      have hnext : (exchange sock).next e .main = some { e with
          responseQ := rest.filter fun line => !isTriggered line, main := .idle,
          returned := e.returned ++ [(c.text, lines ++ [line])] } := by
        simp [exchange, Exchange.stepMain, hthread, hline, hstops]
      have hdrains : ({ s with recvQ := rest }.takeLine c lines line).main = .draining :=
        if_pos hlast
      refine ⟨[.main], _, follow_one hnext, { h with
        main := by rw [hdrains]; rfl
        queue := fun hne => absurd hdrains hne
        asked := hasked
        returned := ?_
        replies := ?_ }⟩
      · rw [← List.append_assoc, ← h.returned]
        exact if_pos hlast
      · rw [hreplies, hdrains, List.flatMap_append, List.flatMap_singleton,
          List.append_assoc]
        simp [ConsoleMain.lines]
  | false =>
      rw [hstops] at hlast
      have hnext : (exchange sock).next e .main = some { e with
          responseQ := rest.filter fun line => !isTriggered line,
          main := .reading c (lines ++ [line]) } := by
        simp [exchange, Exchange.stepMain, hthread, hline, hstops]
      have hreads : ({ s with recvQ := rest }.takeLine c lines line).main =
          .reading c (lines ++ [line]) := if_neg (by rw [hlast]; exact Bool.false_ne_true)
      refine ⟨[.main], _, follow_one hnext, { h with
        main := by rw [hreads]; rfl
        queue := fun _ => rfl
        asked := hasked
        returned := (if_neg (by rw [hlast]; exact Bool.false_ne_true)).trans h.returned
        replies := ?_ }⟩
      rw [hreplies, hreads]
      rfl

theorem InStep.receive {line rest : Bytes} (h : InStep s₀ s t e)
    (hrecv : clientRecvLine [] s.toClient = some (line, rest)) :
    ∃ as e', (exchange sock).follow e as = some e' ∧
      InStep s₀ { s with toClient := rest, recvQ := s.recvQ ++ [line] } (t ++ as) e' := by
  have hasked := h.asked
  rw [← issued_of_quiet t .receiver rfl] at hasked
  cases htriggered : isTriggered line with
  | true =>
      have hnext : (exchange sock).next e .receiver =
          some { e with toClient := rest, posted := e.posted ++ [line] } := by
        simp [exchange, Exchange.stepReceiver, h.toClient, hrecv, htriggered]
      refine ⟨[.receiver], _, follow_one hnext, { h with
        toClient := rfl
        queue := fun hne => ?_
        asked := hasked }⟩
      rw [List.filter_append, List.filter_singleton, htriggered]
      exact (h.queue hne).trans (List.append_nil _).symm
  | false =>
      have hnext : (exchange sock).next e .receiver =
          some { e with toClient := rest, responseQ := e.responseQ ++ [line] } := by
        simp [exchange, Exchange.stepReceiver, h.toClient, hrecv, htriggered]
      refine ⟨[.receiver], _, follow_one hnext, { h with
        toClient := rfl
        queue := fun hne => ?_
        asked := hasked }⟩
      rw [List.filter_append, List.filter_singleton, htriggered, ← h.queue hne]
      rfl

theorem InStep.dispatch {line rest : Bytes} {server : Server} {reply : Reply}
    (h : InStep s₀ s t e) (hok : ExchangeOk sock t e) (hunsent : s.unsent = [])
    (hrecv : serverRecvLine [] s.toServer = some (line, rest)) (hline : line ≠ [])
    (hserve : serve exec s.server (.line sock line) = some server)
    (hreply : s.server.reply exec sock line = some reply) :
    ∃ as e', (exchange sock).follow e as = some e' ∧ InStep s₀ { s with
      server := server, toServer := rest, unsent := reply.lines,
      handled := s.handled ++ [(line, reply.lines)] } (t ++ as) e' := by
  have hnext : (exchange sock).next e .session = some { e with
      server := server, toServer := rest, unsent := reply.lines,
      handled := e.handled ++ [(line, reply.lines)] } := by
    simp [exchange, Exchange.stepSession, h.unsent, hunsent, h.toServer, hrecv, hline,
      h.server, hserve, hreply]
  refine ⟨[.session], _, follow_one hnext, { h with
    server := rfl
    toServer := rfl
    unsent := rfl
    shape := ?_
    asked := ?_
    handled := by rw [h.handled, List.append_assoc] }⟩
  · refine List.forall_mem_append.mpr ⟨h.shape, List.forall_mem_singleton.mpr ?_⟩
    rintro c rfl
    exact stopsAlike_of_serve (h.server ▸ hok.healthy) hserve hreply
  · rw [issued_of_quiet t .session rfl]
    exact h.asked

theorem InStep.step {a : ConsoleAction} (h : InStep s₀ s t e) (hok : ExchangeOk sock t e)
    (htime : a.onTime) (hstep : ConsoleStep sock s a s') :
    ∃ as e', (exchange sock).follow e as = some e' ∧ InStep s₀ s' (t ++ as) e' := by
  have hasked : ∀ a : ExchangeAction, a.command = [] →
      s.asked = s₀.asked ++ issued (t ++ [a]) :=
    fun a ha => by rw [issued_of_quiet t a ha, h.asked]
  cases hstep with
  | drain hmain =>
      have hidle : e.main = .idle := by
        rw [h.main, hmain]
        rfl
      exact h.stays rfl rfl rfl rfl (by rw [hmain]; exact ⟨rfl, rfl⟩)
        (fun _ => hok.queue_eq_nil hidle) rfl rfl rfl rfl (filterMap_alert _).2
  | send hmain => exact h.send hmain
  | emptyLine hmain hqueue =>
      obtain ⟨-, -, hne, -⟩ := h.stopsAlike hok hmain hqueue rfl
      exact absurd rfl hne
  | alert hmain hqueue htriggered =>
      refine h.stays rfl rfl rfl rfl ⟨rfl, rfl⟩ (fun hne => ?_) rfl rfl rfl rfl
        (filterMap_alert [_]).2
      rw [h.queue hne, hqueue]
      exact List.filter_cons_of_neg (by rw [htriggered]; exact Bool.false_ne_true)
  | line hmain hqueue htriggered => exact h.line hok hmain hqueue htriggered
  | choose hmain => exact h.chosen hok hmain (chosen_choose _ _)
  | sendFails | timeout => cases htime
  | @answer resp rest hunsent =>
      have hnext : (exchange sock).next e .session = some { e with
          unsent := rest, toClient := e.toClient ++ serverSendLine resp } := by
        simp [exchange, Exchange.stepSession, h.unsent, hunsent]
      exact ⟨[.session], _, follow_one hnext, { h with
        unsent := rfl, toClient := by rw [h.toClient], asked := hasked _ rfl }⟩
  | @skip rest hunsent hrecv =>
      have hnext : (exchange sock).next e .session = some { e with
          toServer := rest } := by
        simp [exchange, Exchange.stepSession, h.unsent, hunsent, h.toServer, hrecv]
      exact ⟨[.session], _, follow_one hnext,
        { h with toServer := rfl, asked := hasked _ rfl }⟩
  | dispatch hunsent hrecv hline hserve hreply =>
      exact h.dispatch hok hunsent hrecv hline hserve hreply
  | receive hrecv => exact h.receive hrecv
  | @push k task htask =>
      have hnext : (exchange sock).next e (.push k) = some { e with
          toClient := e.toClient ++ task.msg, pushed := e.pushed ++ [task.msg] } := by
        simp [exchange, h.server, htask]
      exact ⟨[.push k], _, follow_one hnext, { h with
        toClient := by rw [h.toClient], asked := hasked _ rfl }⟩
  | @other ev server hspares hserve =>
      have hnext : (exchange sock).next e (.other ev) = some { e with
          server := server } := by
        simp [exchange, h.server, hspares, hserve]
      exact ⟨[.other ev], _, follow_one hnext,
        { h with server := rfl, asked := hasked _ rfl }⟩

/-- The exchange starts where the console is quiet. -/
theorem Console.Quiet.inStep (h : s.Quiet) (wire : List Bytes) :
    InStep s s [] (s.exchange wire) where
  server := rfl
  toServer := h.toServer.symm
  unsent := h.unsent.symm
  toClient := rfl
  main := by rw [h.main]; rfl
  queue hne := absurd h.main hne
  shape := List.forall_mem_nil _
  asked := (List.append_nil _).symm
  handled := (List.append_nil _).symm
  returned := (List.append_nil _).symm
  replies := by rw [h.main]; exact (List.append_nil _).symm

theorem exchangeOk_of_quiet {wire : List Bytes} (hhealthy : Healthy s.server.world)
    (hopen : (s.server.sessions sock).isSome)
    (hwire : s.toClient = wire.flatMap serverSendLine)
    (honly : ∀ line ∈ wire, isTriggered line = true ∧ ∀ b ∈ line, Plain b)
    (h : (exchange sock).AnyRun (s.exchange wire) t e) : ExchangeOk sock t e := by
  induction h with
  | nil =>
      have htriggered : wire.filter isTriggered = wire :=
        List.filter_eq_self.mpr fun line hline => (honly line hline).1
      have hreplies : (wire.filter fun line => !isTriggered line) = [] :=
        List.filter_eq_nil_iff.mpr fun line hline => by simp [(honly line hline).1]
      refine ⟨hhealthy, hopen, List.forall_mem_nil _, wire, hwire,
        fun line hline => (honly line hline).2, ?_, ?_⟩
      · rw [htriggered]
        rfl
      · rw [hreplies]
        exact .quiet rfl rfl rfl rfl rfl rfl rfl
  | snoc _ hnext _ ih => exact ih.step (step_of_exchange hnext)

/-- The runs of the console are those of `exchange` as long as no command is given up. -/
theorem inStep_of_run {t₀ : List ConsoleAction} (h : s₀.Quiet)
    (hhealthy : Healthy s₀.server.world) (hopen : (s₀.server.sessions sock).isSome)
    (hrun : (console sock).Run (fun _ _ a => a.onTime) s₀ t₀ s) :
    ∃ t e, InStep s₀ s t e ∧ ExchangeOk sock t e := by
  obtain ⟨wire, hwire, honly⟩ := h.onWay
  have hok : ∀ t e, (exchange sock).AnyRun (s₀.exchange wire) t e → ExchangeOk sock t e :=
    fun _ _ => exchangeOk_of_quiet hhealthy hopen hwire honly
  obtain ⟨t, e, hexchange, hrel⟩ := hrun.simulated (N := exchange sock) (R := InStep s₀)
    (fun _ _ _ _ _ _ hrel hrun htime hnext =>
      hrel.step (hok _ _ hrun) htime (step_of_console hnext)) (h.inStep wire)
  exact ⟨t, e, hrel, hok t e hexchange⟩

end InStep

theorem thread_of_none {main : ConsoleMain} (h : main.command = none) :
    main.thread = .idle := by
  cases main with
  | draining | choosing | exited => rfl
  | sending | reading => cases h

theorem thread_of_some {main : ConsoleMain} {c : ClientCommand}
    (h : main.command = some c) :
    (main.thread = .sending c ∧ main.lines = []) ∨ main.thread =
    .reading c main.lines := by
  cases main with
  | draining | choosing | exited => cases h
  | sending c' =>
      obtain rfl := Option.some.inj h
      exact .inl ⟨rfl, rfl⟩
  | reading c' lines =>
      obtain rfl := Option.some.inj h
      exact .inr rfl

section Phase

variable {e : Exchange} {replies commands : List Bytes} {c : ClientCommand}
  {lines : List Bytes}

theorem Phase.at_rest (h : Phase e replies commands) (hmain : e.main = .idle) :
    e.returned = e.handled ∧ commands = e.handled.map Prod.fst := by
  cases h with
  | quiet _ _ _ _ _ hdone hissued => exact ⟨hdone, hissued⟩
  | called hmain' | sent hmain' | answered hmain' => cases hmain.symm.trans hmain'

theorem Phase.at_call (h : Phase e replies commands) (hmain : e.main = .sending c) :
    e.returned = e.handled ∧ commands = e.handled.map Prod.fst ++ [c.text] := by
  cases h with
  | called hmain' _ _ _ _ _ hdone hissued =>
      obtain rfl := MainThread.sending.inj (hmain.symm.trans hmain')
      exact ⟨hdone, hissued⟩
  | quiet hmain' | sent hmain' | answered hmain' => cases hmain.symm.trans hmain'

theorem Phase.at_read (h : Phase e replies commands) (hmain : e.main = .reading c lines) :
    commands = e.returned.map Prod.fst ++ [c.text] ∧
      (lines = [] ∨ ∃ rest, e.handled = e.returned ++ [(c.text, lines ++ rest)]) := by
  cases h with
  | sent hmain' _ _ _ _ _ hdone hissued =>
      obtain ⟨rfl, rfl⟩ := MainThread.reading.inj (hmain.symm.trans hmain')
      exact ⟨by rw [hissued, hdone], .inl rfl⟩
  | answered hmain' _ hhandled hreply _ _ _ hissued =>
      obtain ⟨rfl, rfl⟩ := MainThread.reading.inj (hmain.symm.trans hmain')
      refine ⟨by rw [hissued, hhandled]; simp,
        .inr ⟨e.responseQ ++ (replies ++ e.unsent), ?_⟩⟩
      rw [hhandled, hreply]
  | quiet hmain' | called hmain' => cases hmain.symm.trans hmain'

end Phase

/-- From where nothing is on the way but notifications, and as long as no command is given
up, what the console prints for a command are the lines of the reply to that command: all
of them for each command before the one in progress, and for that one the first lines. -/
theorem console_in_step {sock : Socket} {clock : ℕ → LocalTime} {marketData : Bool}
    {history : List Event} {server : Server} {t₀ t : List ConsoleAction} {s₀ s : Console}
    (hstart : serveAll exec (.off .created clock) (.startUp marketData :: history) =
      some server)
    (hopen : (server.sessions sock).isSome)
    (hbefore : (console sock).AnyRun (.start server) t₀ s₀) (hquiet : s₀.Quiet)
    (h : (console sock).Run (fun _ _ a => a.onTime) s₀ t s) :
    ∃ answered, s.returned = s₀.returned ++ answered ∧
      s.replies = s₀.replies ++ (answered.flatMap Prod.snd ++ s.main.lines) ∧
      (s.main.command = none → s.handled = s₀.handled ++ answered ∧
        s.asked = s₀.asked ++ answered.map Prod.fst) ∧
      ∀ c, s.main.command = some c →
        s.asked = s₀.asked ++ answered.map Prod.fst ++ [c.text] ∧
        (s.main.lines = [] ∨
          ∃ rest, s.handled = s₀.handled ++ answered ++
          [(c.text, s.main.lines ++ rest)]) := by
  obtain ⟨_, hs₀⟩ := consoleOk_of_run (healthy_of_history hstart) hopen hbefore
  obtain ⟨t', e, hrel, hok⟩ := inStep_of_run hquiet hs₀.healthy hs₀.isOpen h
  obtain ⟨_, hflow⟩ := hok.flow
  refine ⟨e.returned, hrel.returned, hrel.replies, fun hnone => ?_, fun c hc => ?_⟩
  · obtain ⟨hdone, hissued⟩ :=
      hflow.phase.at_rest (hrel.main.trans (thread_of_none hnone))
    rw [hrel.handled, hrel.asked, hdone, hissued]
    exact ⟨rfl, rfl⟩
  · rw [hrel.handled, hrel.asked]
    simp only [List.append_assoc]
    rcases thread_of_some hc with ⟨hmain, hlines⟩ | hmain
    · obtain ⟨hdone, hissued⟩ := hflow.phase.at_call (hrel.main.trans hmain)
      exact ⟨by rw [hissued, hdone], .inl hlines⟩
    · obtain ⟨hissued, hlines | ⟨rest, hhandled⟩⟩ :=
        hflow.phase.at_read (hrel.main.trans hmain)
      · exact ⟨by rw [hissued], .inl hlines⟩
      · exact ⟨by rw [hissued], .inr ⟨rest, by rw [hhandled]⟩⟩

/-- A login is given up, and its reply comes before the menu is shown again. -/
def lateLogin : List ConsoleAction :=
  [.main, .choose (.login annName annPassword), .main, .timeout, .session,
    .session, .receiver]

/-- The login is tried again. -/
def loginAgain : List ConsoleAction :=
  [.main, .choose (.login annName annPassword), .main, .session, .session,
    .receiver, .main]

set_option synthInstance.maxSize 1000 in
set_option maxRecDepth 10000 in
/-- The second login is printed with its own reply. -/
theorem console_in_step_second :
    ∃ server s₀ s, (console 7).AnyRun (.start server) lateLogin s₀ ∧
      (console 7).Run (fun _ _ a => a.onTime) s₀ loginAgain s ∧
      ∃ answered, s.returned = s₀.returned ++ answered ∧
        answered.map Prod.fst = [ascii "LOGIN ann pw"] ∧
        s.replies = s₀.replies ++ answered.flatMap Prod.snd ∧
        s.handled = s₀.handled ++ answered := by
  have hserver : (serveAll exec (.off .created fun _ => ⟨2025, 6, 0, 8, 55, 0⟩)
      (.startUp true :: firedAlert)).map (fun server => (server.sessions 7).isSome) =
        some true := by decide +kernel
  have hstate : (serveAll exec (.off .created fun _ => ⟨2025, 6, 0, 8, 55, 0⟩)
      (.startUp true :: firedAlert)).map (fun server =>
        ((console 7).follow (.start server) lateLogin).map fun s₀ =>
          ((s₀.main, s₀.toServer, s₀.unsent, s₀.toClient),
            ((console 7).followIf (fun _ _ a => a.onTime) [] s₀ loginAgain).map fun s =>
              (s.main, s.asked.drop s₀.asked.length))) =
        some (some ((.draining, [], [], []), some (.draining, [ascii "LOGIN ann pw"])))
          := by
    decide +kernel
  obtain ⟨server, hstart, hopen⟩ := Option.map_eq_some_iff.mp hserver
  rw [hstart] at hstate
  obtain ⟨s₀, hs₀, hparts⟩ := Option.map_eq_some_iff.mp (Option.some.inj hstate)
  obtain ⟨hquiet, hsecond⟩ := Prod.mk.inj hparts
  simp only [Prod.mk.injEq] at hquiet
  obtain ⟨hmain₀, htoServer, hunsent, htoClient⟩ := hquiet
  obtain ⟨s, hs, hend⟩ := Option.map_eq_some_iff.mp hsecond
  obtain ⟨hmain, hasked⟩ := Prod.mk.inj hend
  have hbefore := Machine.run_of_follow hs₀
  have hrun := Machine.Run.followIf_append .nil hs
  obtain ⟨answered, hreturned, hreplies, hrest, -⟩ := console_in_step hstart hopen hbefore
    ⟨hmain₀, htoServer, hunsent, [], htoClient, List.forall_mem_nil _⟩ hrun
  obtain ⟨hhandled, hnames⟩ := hrest (by rw [hmain]; rfl)
  refine ⟨server, s₀, s, hbefore, hrun, answered, hreturned, ?_, ?_, hhandled⟩
  · rw [hnames, List.drop_left] at hasked
    exact hasked
  · rw [hreplies, hmain]
    exact congrArg (s₀.replies ++ ·) (List.append_nil _)

/-- A wrong password is given up, and its reply comes while the menu is shown. -/
def lateWrongPassword : List ConsoleAction :=
  [.main, .choose (.login annName annName), .main, .timeout, .main, .session, .session,
    .choose (.login annName annPassword), .main, .receiver, .main]

-- the second login is printed with the reply to the first one
set_option synthInstance.maxSize 1000 in
set_option maxRecDepth 10000 in
example : (serveAll exec (.off .created fun _ => ⟨2025, 6, 0, 8, 55, 0⟩)
    (.startUp true :: firedAlert)).map (fun server =>
      ((console 7).follow (.start server) lateWrongPassword).map fun s =>
        (s.handled, s.returned)) =
    some (some ([(ascii "LOGIN ann ann", [ascii "ERR wrong username or password"])],
      [(ascii "LOGIN ann pw", [ascii "ERR wrong username or password"])])) := by
  decide +kernel

end CloudAlert
