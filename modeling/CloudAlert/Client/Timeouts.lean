import CloudAlert.Client.Exchange

/-!
# Late replies

`SendCommand` clears `m_responseQ`, sends, and takes the next lines for the reply; when
none comes in time it gives up, and the reply is still to come. `window` is the machine of
the window and its connection with the lines traced to the command they answer, and
`prompt` is the condition on its steps: nothing late is under way when a command is sent,
and no notification comes before the receiver thread runs. The connection is one of lines
here; what the two ends make of the bytes is in `Wire.lean`.
-/

namespace CloudAlert

open Program

/-! ## The parties -/

/-- Where a line comes from: the reply to a command, or the notification worker. -/
inductive Origin where
  | reply (number : ℕ)
  | push
deriving DecidableEq

/-- A line on its way to the client. -/
structure TracedLine where
  origin : Origin
  text : Bytes
deriving DecidableEq

/-- Where the main thread is. -/
inductive CommandState where
  | idle
  | sending (number : ℕ) (c : ClientCommand)     -- at `m_client.SendLine`
  -- at `ReadResponseLine`, or at `m_client.RecvLine` if there is no receiver thread
  | reading (number : ℕ) (c : ClientCommand) (lines : List TracedLine)
  | starting                                     -- at `StartReceiver`

/-- What a `SendCommand` has returned. -/
structure CommandReturn where
  number : ℕ
  command : ClientCommand
  lines : List TracedLine

/-- The window, its connection and the server. -/
structure Window where
  sock : Socket
  server : Server
  toServer : List (ℕ × Bytes)      -- sent and not yet received
  unsent : List TracedLine         -- lines the session has still to send
  toClient : List TracedLine       -- sent and not yet received
  responseQ : List TracedLine
  posted : List TracedLine         -- posted as WM_APP_TRIGGERED
  receiver : Bool                  -- `m_recvThread` is set
  main : CommandState
  calls : ℕ                        -- of `SendCommand`
  returned : List CommandReturn

/-- What can happen: `SendCommand` is called, a step of the main thread, it gives up, a
step of the session thread or of the receiver thread, the worker sends the message of a
task, the user logs out and the window connects again, an event that is not about this
connection. -/
inductive WindowAction where
  | call (c : ClientCommand)
  | main
  | giveUp
  | session
  | receiver
  | push (k : ℕ)
  | reconnect (sock : Socket)
  | other (e : Event)

/-- `SendCommand` of `LoginUser`, which starts the receiver thread when it is accepted. -/
def acceptedLogin (c : ClientCommand) (lines : List TracedLine) : Bool :=
  match c with
  | .login _ _ => isOk (lines.map TracedLine.text)
  | _ => false

/-- `SendCommand` has read a line. -/
def Window.take (s : Window) (number : ℕ) (c : ClientCommand) (lines : List TracedLine)
    (line : TracedLine) : Window :=
  if stops c.expectEnd line.text then { s with
    main := if acceptedLogin c (lines ++ [line]) then .starting else .idle,
    returned := s.returned ++ [⟨number, c, lines ++ [line]⟩] }
  else { s with main := .reading number c (lines ++ [line]) }

/-- The next step of the main thread. -/
def Window.stepMain (s : Window) : Option Window :=
  match s.main with
  | .idle => none
  | .sending number c => some { s with
      toServer := s.toServer ++ [(number, c.text)], main := .reading number c [] }
  | .reading number c lines =>
      if s.receiver then
        match s.responseQ with
        | [] => none
        | line :: rest =>
            some (Window.take { s with responseQ := rest } number c lines line)
      else
        match s.toClient with
        | [] => none
        | line :: rest =>
            some (Window.take { s with toClient := rest } number c lines line)
  | .starting => some { s with receiver := true, main := .idle }

/-- `SendCommand` returns false: the line cannot be sent, or the time is up. Or the
receiver thread does not start. -/
def Window.stepGiveUp (s : Window) : Option Window :=
  match s.main with
  | .idle => none
  | .sending number c => some { s with
      main := .idle, returned := s.returned ++ [⟨number, c, []⟩] }
  | .reading number c lines => some { s with
      main := .idle, returned := s.returned ++ [⟨number, c, lines⟩] }
  | .starting => some { s with main := .idle }

/-- The next step of the session thread. -/
def Window.stepSession (s : Window) : Option Window :=
  match s.unsent with
  | line :: rest => some { s with unsent := rest, toClient := s.toClient ++ [line] }
  | [] =>
      match s.toServer with
      | [] => none
      | (number, text) :: rest =>
          match received text with
          | [] => some { s with toServer := rest }
          | line :: _ =>
              match serve exec s.server (.line s.sock line),
                s.server.reply exec s.sock line with
              | some server, some reply => some { s with
                  server := server, toServer := rest,
                  unsent := reply.lines.map fun text => ⟨.reply number, text⟩ }
              | _, _ => none

/-- The next step of `RecvThreadProc`. -/
def Window.stepReceiver (s : Window) : Option Window :=
  if s.receiver then
    match s.toClient with
    | [] => none
    | line :: rest =>
        if isTriggered line.text then some { s with
          toClient := rest, posted := s.posted ++ [line] }
        else some { s with toClient := rest, responseQ := s.responseQ ++ [line] }
  else none

/-- The window with its connection. -/
def window : Machine Window WindowAction where
  next s
    | .call c =>
        match s.main with
        | .idle => some { s with
            responseQ := [], main := .sending (s.calls + 1) c, calls := s.calls + 1 }
        | _ => none
    | .main => s.stepMain
    | .giveUp => s.stepGiveUp
    | .session => s.stepSession
    | .receiver => s.stepReceiver
    | .push k =>
        (s.server.world.tasks[k]?.bind fun task => clientRecvLine [] task.msg).map
          fun received => { s with toClient := s.toClient ++ [⟨.push, received.1⟩] }
    | .reconnect sock =>
        match s.main with
        | .idle => (serve exec s.server (.connect sock)).map fun server => { s with
            sock := sock, server := server, toServer := [], unsent := [], toClient := [],
            receiver := false }
        | _ => none
    | .other e =>
        if e.spares s.sock then
          (serve exec s.server e).map fun server => { s with server := server }
        else none

/-- When the window has connected. -/
def Window.start (sock : Socket) (server : Server) : Window where
  sock := sock
  server := server
  toServer := []
  unsent := []
  toClient := []
  responseQ := []
  posted := []
  receiver := false
  main := .idle
  calls := 0
  returned := []

/-- What an action can do. -/
inductive WindowStep (s : Window) : WindowAction → Window → Prop where
  | call {c} (hmain : s.main = .idle) : WindowStep s (.call c) { s with
      responseQ := [], main := .sending (s.calls + 1) c, calls := s.calls + 1 }
  | send {number c} (hmain : s.main = .sending number c) : WindowStep s .main { s with
      toServer := s.toServer ++ [(number, c.text)], main := .reading number c [] }
  | read {number c lines line rest} (hmain : s.main = .reading number c lines)
      (hreceiver : s.receiver = true) (hqueue : s.responseQ = line :: rest) :
      WindowStep s .main (Window.take { s with responseQ := rest } number c lines line)
  | receive {number c lines line rest} (hmain : s.main = .reading number c lines)
      (hreceiver : s.receiver = false) (hclient : s.toClient = line :: rest) :
      WindowStep s .main (Window.take { s with toClient := rest } number c lines line)
  | start (hmain : s.main = .starting) :
      WindowStep s .main { s with receiver := true, main := .idle }
  | unsent {number c} (hmain : s.main = .sending number c) : WindowStep s .giveUp { s with
      main := .idle, returned := s.returned ++ [⟨number, c, []⟩] }
  | timeout {number c lines} (hmain : s.main = .reading number c lines) :
      WindowStep s .giveUp { s with
        main := .idle, returned := s.returned ++ [⟨number, c, lines⟩] }
  | noThread (hmain : s.main = .starting) : WindowStep s .giveUp { s with main := .idle }
  | answer {line rest} (hunsent : s.unsent = line :: rest) :
      WindowStep s .session { s with
      unsent := rest, toClient := s.toClient ++ [line] }
  | skip {sent rest} (hserver : s.toServer = sent :: rest) :
      WindowStep s .session { s with toServer := rest }
  | dispatch {number text rest server} {lines : List Bytes} (hunsent : s.unsent = [])
      (hserver : s.toServer = (number, text) :: rest)
      (hserve : ∃ e, serve exec s.server e = some server) :
      WindowStep s .session { s with
        server := server, toServer := rest,
        unsent := lines.map fun text => ⟨.reply number, text⟩ }
  | post {line rest} (hreceiver : s.receiver = true)
      (hclient : s.toClient = line :: rest) :
      WindowStep s .receiver { s with toClient := rest, posted := s.posted ++ [line] }
  | queue {line rest} (hreceiver : s.receiver = true)
      (hclient : s.toClient = line :: rest)
      (htriggered : isTriggered line.text = false) : WindowStep s .receiver { s with
        toClient := rest, responseQ := s.responseQ ++ [line] }
  | push {k task text more} (htask : task ∈ s.server.world.tasks)
      (hrecv : clientRecvLine [] task.msg = some (text, more)) :
      WindowStep s (.push k) { s with
        toClient := s.toClient ++ [⟨.push, text⟩] }
  | reconnect {sock server} (hmain : s.main = .idle)
      (hserve : serve exec s.server (.connect sock) = some server) :
      WindowStep s (.reconnect sock) { s with
        sock := sock, server := server, toServer := [], unsent := [], toClient := [],
        receiver := false }
  | other {e server} (hserve : serve exec s.server e = some server) :
      WindowStep s (.other e) { s with server := server }

theorem step_of_window {s s' : Window} {a : WindowAction}
    (h : window.next s a = some s') : WindowStep s a s' := by
  cases a with
  | call c =>
      simp only [window] at h
      split at h
      · rename_i hmain
        obtain rfl := Option.some.inj h
        exact .call hmain
      · cases h
  | main =>
      simp only [window, Window.stepMain] at h
      split at h
      · cases h
      · rename_i hmain
        obtain rfl := Option.some.inj h
        exact .send hmain
      · rename_i hmain
        split at h
        · rename_i hreceiver
          split at h
          · cases h
          · rename_i hqueue
            obtain rfl := Option.some.inj h
            exact .read hmain hreceiver hqueue
        · rename_i hreceiver
          split at h
          · cases h
          · rename_i hclient
            obtain rfl := Option.some.inj h
            exact .receive hmain (Bool.eq_false_iff.mpr hreceiver) hclient
      · rename_i hmain
        obtain rfl := Option.some.inj h
        exact .start hmain
  | giveUp =>
      simp only [window, Window.stepGiveUp] at h
      split at h
      · cases h
      · rename_i hmain
        obtain rfl := Option.some.inj h
        exact .unsent hmain
      · rename_i hmain
        obtain rfl := Option.some.inj h
        exact .timeout hmain
      · rename_i hmain
        obtain rfl := Option.some.inj h
        exact .noThread hmain
  | session =>
      simp only [window, Window.stepSession] at h
      split at h
      · rename_i hunsent
        obtain rfl := Option.some.inj h
        exact .answer hunsent
      · rename_i hunsent
        split at h
        · cases h
        · rename_i hserver
          split at h
          · obtain rfl := Option.some.inj h
            exact .skip hserver
          · split at h
            · rename_i hserve hreply
              obtain rfl := Option.some.inj h
              exact .dispatch hunsent hserver ⟨_, hserve⟩
            · cases h
  | receiver =>
      simp only [window, Window.stepReceiver] at h
      obtain ⟨hreceiver, h⟩ := Option.ite_none_right_eq_some.mp h
      split at h
      · cases h
      · rename_i hclient
        split at h
        · obtain rfl := Option.some.inj h
          exact .post hreceiver hclient
        · rename_i htriggered
          obtain rfl := Option.some.inj h
          exact .queue hreceiver hclient (Bool.eq_false_iff.mpr htriggered)
  | push k =>
      obtain ⟨⟨text, more⟩, hrecv, rfl⟩ := Option.map_eq_some_iff.mp h
      obtain ⟨task, htask, hrecv⟩ := Option.bind_eq_some_iff.mp hrecv
      exact .push (List.mem_of_getElem? htask) hrecv
  | reconnect sock =>
      simp only [window] at h
      split at h
      · rename_i hmain
        obtain ⟨server, hserve, rfl⟩ := Option.map_eq_some_iff.mp h
        exact .reconnect hmain hserve
      · cases h
  | other e =>
      obtain ⟨-, h⟩ := Option.ite_none_right_eq_some.mp h
      obtain ⟨server, hserve, rfl⟩ := Option.map_eq_some_iff.mp h
      exact .other hserve

/-! ## The condition -/

/-- `SendCommand` finds nothing on its way: no reply to an earlier command, and without
the receiver thread no notification either. -/
def Window.clear (s : Window) : Bool :=
  s.toServer.isEmpty && s.unsent.isEmpty &&
    s.toClient.all fun line => s.receiver && line.origin = .push

/-- `SendCommand` does not read what is sent now: the receiver thread reads it, or no
command waits for a reply, or the last line of its reply is on the connection already. -/
def Window.spared (s : Window) : Bool :=
  s.receiver ||
    match s.main with
    | .idle | .starting => true
    | .sending _ _ => false
    | .reading _ c _ => s.toClient.any fun line => stops c.expectEnd line.text

/-- A command is sent when the replies to all earlier ones have been received, and a
notification when `SendCommand` does not read the connection. -/
def prompt (s : Window) : WindowAction → Bool
  | .call _ => s.clear
  | .push _ => s.spared
  | _ => true

/-! ## What runs keep -/

/-- The command that waits for its reply. -/
def CommandState.command : CommandState → Option (ℕ × ClientCommand)
  | .idle | .starting => none
  | .sending number c | .reading number c _ => some (number, c)

/-- The lines it has read. -/
def CommandState.lines : CommandState → List TracedLine
  | .reading _ _ lines => lines
  | _ => []

/-- Up to the last line of the reply there are lines of the reply only. -/
def Answers (number : ℕ) (expectEnd : Bool) : List TracedLine → Prop
  | [] => True
  | line :: rest => line.origin = .reply number ∧
      (stops expectEnd line.text = true ∨ Answers number expectEnd rest)

/-- What is on its way is the reply to this command, and notifications. -/
structure Window.Serves (s : Window) (number : ℕ) (c : ClientCommand) : Prop where
  toServer : ∀ sent ∈ s.toServer, sent.1 = number
  unsent : ∀ line ∈ s.unsent, line.origin = .reply number
  toClient : ∀ line ∈ s.toClient, line.origin = .reply number ∨ line.origin = .push
  responseQ : ∀ line ∈ s.responseQ, line.origin = .reply number
  direct : s.receiver = false → Answers number c.expectEnd s.toClient

structure WindowOk (s : Window) : Prop where
  healthy : Healthy s.server.world
  pushes : ∀ line ∈ s.toClient, line.origin = .push → isTriggered line.text = true
  replies : ∀ line ∈ s.unsent, line.origin ≠ .push
  returned : ∀ out ∈ s.returned, ∀ line ∈ out.lines, line.origin = .reply out.number
  serves : ∀ number c, s.main.command = some (number, c) → s.Serves number c
  lines : ∀ number c, s.main.command = some (number, c) →
    ∀ line ∈ s.main.lines, line.origin = .reply number

section Answers

variable {number : ℕ} {expectEnd : Bool} {lines : List TracedLine}

theorem Answers.append (h : Answers number expectEnd lines) {line : TracedLine}
    (hline : line.origin = .reply number) :
    Answers number expectEnd (lines ++ [line]) := by
  induction lines with
  | nil => exact ⟨hline, .inr trivial⟩
  | cons first rest ih => exact ⟨h.1, h.2.imp_right ih⟩

/-- What comes after the last line of the reply does no harm. -/
theorem Answers.append_of_stops (h : Answers number expectEnd lines)
    (hstops : ∃ line ∈ lines, stops expectEnd line.text = true) (line : TracedLine) :
    Answers number expectEnd (lines ++ [line]) := by
  induction lines with
  | nil =>
      obtain ⟨_, hmem, -⟩ := hstops
      cases hmem
  | cons first rest ih =>
      refine ⟨h.1, ?_⟩
      by_cases hfirst : stops expectEnd first.text = true
      · exact .inl hfirst
      · obtain ⟨last, hmem, hlast⟩ := hstops
        have hrest : last ∈ rest :=
          (List.mem_cons.mp hmem).resolve_left fun heq => hfirst (heq ▸ hlast)
        exact .inr (ih (h.2.resolve_left hfirst) ⟨last, hrest, hlast⟩)

end Answers

section Steps

variable {s s' : Window} {number : ℕ} {c : ClientCommand}

theorem WindowOk.other_step (h : WindowOk s) (hhealthy : Healthy s'.server.world)
    (hpushes : ∀ line ∈ s'.toClient, line.origin = .push → isTriggered line.text = true)
    (hreplies : ∀ line ∈ s'.unsent, line.origin ≠ .push)
    (hmain : s'.main = s.main) (hreturned : s'.returned = s.returned)
    (hserves : ∀ number c, s.main.command = some (number, c) → s.Serves number c →
      s'.Serves number c) : WindowOk s' where
  healthy := hhealthy
  pushes := hpushes
  replies := hreplies
  returned := hreturned ▸ h.returned
  serves number c hcommand := by
    rw [hmain] at hcommand
    exact hserves number c hcommand (h.serves number c hcommand)
  lines := hmain ▸ h.lines

theorem WindowOk.back {out : CommandReturn} {main : CommandState} (h : WindowOk s)
    (hmain : main.command = none)
    (hout : ∀ line ∈ out.lines, line.origin = .reply out.number) :
    WindowOk { s with main := main, returned := s.returned ++ [out] } where
  healthy := h.healthy
  pushes := h.pushes
  replies := h.replies
  returned := List.forall_mem_append.mpr ⟨h.returned, List.forall_mem_singleton.mpr hout⟩
  serves _ _ hcommand := by
    rw [hmain] at hcommand
    cases hcommand
  lines _ _ hcommand := by
    rw [hmain] at hcommand
    cases hcommand

theorem WindowOk.take {lines : List TracedLine} {line : TracedLine}
    (h : WindowOk { s with main := .idle })
    (hlines : ∀ line' ∈ lines ++ [line], line'.origin = .reply number)
    (hserves : stops c.expectEnd line.text = false → s.Serves number c) :
    WindowOk (s.take number c lines line) := by
  unfold Window.take
  split
  · refine h.back ?_ hlines
    split <;> rfl
  · rename_i hgoes
    refine ⟨h.healthy, h.pushes, h.replies, h.returned, fun _ _ hcommand => ?_,
      fun _ _ hcommand => ?_⟩
    · obtain ⟨rfl, rfl⟩ := Prod.mk.inj (Option.some.inj hcommand)
      have hs := hserves (Bool.eq_false_iff.mpr hgoes)
      exact ⟨hs.toServer, hs.unsent, hs.toClient, hs.responseQ, hs.direct⟩
    · obtain ⟨rfl, rfl⟩ := Prod.mk.inj (Option.some.inj hcommand)
      exact hlines

theorem WindowOk.of_quiet (h : WindowOk s) (hmain : s'.main.command = none)
    (hhealthy : Healthy s'.server.world)
    (hclient : ∀ line ∈ s'.toClient, line ∈ s.toClient)
    (hunsent : ∀ line ∈ s'.unsent, line ∈ s.unsent)
    (hreturned : s'.returned = s.returned) : WindowOk s' where
  healthy := hhealthy
  pushes line hline := h.pushes line (hclient line hline)
  replies line hline := h.replies line (hunsent line hline)
  returned := hreturned ▸ h.returned
  serves _ _ hcommand := by
    rw [hmain] at hcommand
    cases hcommand
  lines _ _ hcommand := by
    rw [hmain] at hcommand
    cases hcommand

theorem isTriggered_of_recv {w : World} (h : Healthy w) {task : NotifyTask}
    (htask : task ∈ w.tasks) {text more : Bytes}
    (hrecv : clientRecvLine [] task.msg = some (text, more)) :
    isTriggered text = true := by
  obtain ⟨line, hmsg, hpush⟩ := h.tasks task htask
  rw [hmsg, clientRecvLine_line (newline_notMem_of_plain hpush.2), List.nil_append,
    dropCR_of_plain hpush.2] at hrecv
  obtain ⟨rfl, -⟩ := Prod.mk.inj (Option.some.inj hrecv)
  exact startsWith_iff.mpr hpush.1

theorem Window.Serves.of_clear (h : s.clear = true) (main : CommandState) (calls : ℕ) :
    Window.Serves { s with responseQ := [], main := main, calls := calls } number c := by
  simp only [Window.clear, Bool.and_eq_true, List.isEmpty_iff, List.all_eq_true,
    decide_eq_true_eq] at h
  obtain ⟨⟨hserver, hunsent⟩, hclient⟩ := h
  refine ⟨?_, ?_, fun line hline => .inr (hclient line hline).2, List.forall_mem_nil _,
    fun hreceiver => ?_⟩
  · rw [hserver]
    exact List.forall_mem_nil _
  · rw [hunsent]
    exact List.forall_mem_nil _
  · cases hlines : s.toClient with
    | nil => trivial
    | cons line rest =>
        have hrunning := (hclient line (hlines ▸ List.mem_cons_self)).1
        exact absurd (hrunning.symm.trans hreceiver) Bool.noConfusion

/-- While `SendCommand` reads the connection, it is spared only what comes after the last
line of the reply. -/
theorem Window.exists_stops_of_spared (h : s.spared = true)
    (hreceiver : s.receiver = false) (hcommand : s.main.command = some (number, c)) :
    ∃ line ∈ s.toClient, stops c.expectEnd line.text = true := by
  rw [Window.spared, hreceiver, Bool.false_or] at h
  cases hmain : s.main with
  | idle =>
      rw [hmain] at hcommand
      cases hcommand
  | starting =>
      rw [hmain] at hcommand
      cases hcommand
  | sending number' c' =>
      rw [hmain] at h
      cases h
  | reading number' c' lines =>
      rw [hmain] at h hcommand
      obtain ⟨rfl, rfl⟩ := Prod.mk.inj (Option.some.inj hcommand)
      exact List.any_eq_true.mp h

theorem WindowOk.step {a : WindowAction} (h : WindowOk s) (hstep : WindowStep s a s')
    (hprompt : prompt s a = true) : WindowOk s' := by
  cases hstep with
  | call hmain =>
      refine ⟨h.healthy, h.pushes, h.replies, h.returned, fun _ _ _ => ?_,
        fun _ _ _ => ?_⟩
      · exact .of_clear hprompt _ _
      · exact List.forall_mem_nil _
  | @send number c hmain =>
      refine ⟨h.healthy, h.pushes, h.replies, h.returned, fun _ _ hcommand => ?_,
        fun _ _ _ => List.forall_mem_nil _⟩
      obtain ⟨rfl, rfl⟩ := Prod.mk.inj (Option.some.inj hcommand)
      have hs := h.serves number c (by rw [hmain]; rfl)
      exact ⟨List.forall_mem_append.mpr ⟨hs.toServer, List.forall_mem_singleton.mpr rfl⟩,
        hs.unsent, hs.toClient, hs.responseQ, hs.direct⟩
  | @read number c lines line rest hmain hreceiver hqueue =>
      have hcommand : s.main.command = some (number, c) := by rw [hmain]; rfl
      have hs := h.serves number c hcommand
      have hlines := h.lines number c hcommand
      rw [hmain] at hlines
      have hown := hs.responseQ
      rw [hqueue, List.forall_mem_cons] at hown
      refine WindowOk.take ?_ ?_ fun _ => ?_
      · exact h.of_quiet rfl h.healthy (fun _ => id) (fun _ => id) rfl
      · exact List.forall_mem_append.mpr ⟨hlines, List.forall_mem_singleton.mpr hown.1⟩
      · exact ⟨hs.toServer, hs.unsent, hs.toClient, hown.2, hs.direct⟩
  | @receive number c lines line rest hmain hreceiver hclient =>
      have hcommand : s.main.command = some (number, c) := by rw [hmain]; rfl
      have hs := h.serves number c hcommand
      have hlines := h.lines number c hcommand
      rw [hmain] at hlines
      have hdirect := hs.direct hreceiver
      rw [hclient] at hdirect
      have hrest : ∀ line' ∈ rest, line' ∈ s.toClient := fun line' hmem =>
        hclient ▸ List.mem_cons_of_mem line hmem
      refine WindowOk.take ?_ ?_ fun hgoes => ?_
      · exact h.of_quiet rfl h.healthy hrest (fun _ => id) rfl
      · exact List.forall_mem_append.mpr ⟨hlines, List.forall_mem_singleton.mpr hdirect.1⟩
      · refine ⟨hs.toServer, hs.unsent,
          fun line' hmem => hs.toClient line' (hrest line' hmem), hs.responseQ, fun _ =>
            hdirect.2.resolve_left ?_⟩
        rw [hgoes]
        exact Bool.false_ne_true
  | start hmain => exact h.of_quiet rfl h.healthy (fun _ => id) (fun _ => id) rfl
  | unsent hmain => exact h.back rfl (List.forall_mem_nil _)
  | @timeout number c lines hmain =>
      have hlines := h.lines number c (by rw [hmain]; rfl)
      rw [hmain] at hlines
      exact h.back rfl hlines
  | noThread hmain => exact h.of_quiet rfl h.healthy (fun _ => id) (fun _ => id) rfl
  | @answer line rest hunsent =>
      have hreplies := h.replies
      rw [hunsent, List.forall_mem_cons] at hreplies
      refine h.other_step h.healthy ?_ hreplies.2 rfl rfl fun number c _ hs => ?_
      · exact List.forall_mem_append.mpr ⟨h.pushes,
          List.forall_mem_singleton.mpr fun hpush =>
          absurd hpush hreplies.1⟩
      · have hown := hs.unsent
        rw [hunsent, List.forall_mem_cons] at hown
        refine ⟨hs.toServer, hown.2, ?_, hs.responseQ, fun hreceiver => ?_⟩
        · exact List.forall_mem_append.mpr ⟨hs.toClient,
            List.forall_mem_singleton.mpr (.inl hown.1)⟩
        · exact (hs.direct hreceiver).append hown.1
  | @skip sent rest hserver =>
      refine h.other_step h.healthy h.pushes h.replies rfl rfl fun number c _ hs => ?_
      have hown := hs.toServer
      rw [hserver, List.forall_mem_cons] at hown
      exact ⟨hown.2, hs.unsent, hs.toClient, hs.responseQ, hs.direct⟩
  | @dispatch number' text rest server lines hunsent hserver hserve =>
      obtain ⟨e, hserve⟩ := hserve
      refine h.other_step (h.healthy.serve hserve) h.pushes ?_ rfl rfl
        fun number c _ hs => ?_
      · exact List.forall_mem_map.mpr fun _ _ => nofun
      · have hown := hs.toServer
        rw [hserver, List.forall_mem_cons] at hown
        refine ⟨hown.2, ?_, hs.toClient, hs.responseQ, hs.direct⟩
        exact List.forall_mem_map.mpr fun _ _ => congrArg Origin.reply hown.1
  | @post line rest hreceiver hclient =>
      have hrest : ∀ line' ∈ rest, line' ∈ s.toClient := fun line' hmem =>
        hclient ▸ List.mem_cons_of_mem line hmem
      refine h.other_step h.healthy (fun line' hmem => h.pushes line' (hrest line' hmem))
        h.replies rfl rfl fun number c _ hs => ?_
      refine ⟨hs.toServer, hs.unsent,
        fun line' hmem => hs.toClient line' (hrest line' hmem), hs.responseQ,
          fun hnone => ?_⟩
      exact absurd (hreceiver.symm.trans hnone) Bool.noConfusion
  | @queue line rest hreceiver hclient htriggered =>
      have hrest : ∀ line' ∈ rest, line' ∈ s.toClient := fun line' hmem =>
        hclient ▸ List.mem_cons_of_mem line hmem
      have hfirst : line ∈ s.toClient := hclient ▸ List.mem_cons_self
      refine h.other_step h.healthy (fun line' hmem => h.pushes line' (hrest line' hmem))
        h.replies rfl rfl fun number c _ hs => ?_
      have hreply : line.origin = .reply number :=
        (hs.toClient line hfirst).resolve_right fun hpush =>
          Bool.false_ne_true (htriggered.symm.trans (h.pushes line hfirst hpush))
      refine ⟨hs.toServer, hs.unsent,
        fun line' hmem => hs.toClient line' (hrest line' hmem), ?_, fun hnone => ?_⟩
      · exact List.forall_mem_append.mpr ⟨hs.responseQ,
          List.forall_mem_singleton.mpr hreply⟩
      · exact absurd (hreceiver.symm.trans hnone) Bool.noConfusion
  | @push k task text more htask hrecv =>
      refine h.other_step h.healthy ?_ h.replies rfl rfl fun number c hcommand hs => ?_
      · exact List.forall_mem_append.mpr ⟨h.pushes, List.forall_mem_singleton.mpr fun _ =>
          isTriggered_of_recv h.healthy htask hrecv⟩
      · refine ⟨hs.toServer, hs.unsent, ?_, hs.responseQ, fun hreceiver => ?_⟩
        · exact List.forall_mem_append.mpr ⟨hs.toClient,
            List.forall_mem_singleton.mpr (.inr rfl)⟩
        · exact (hs.direct hreceiver).append_of_stops
            (Window.exists_stops_of_spared hprompt hreceiver hcommand) _
  | reconnect hmain hserve =>
      refine h.of_quiet ?_ (h.healthy.serve hserve) nofun nofun rfl
      rw [hmain]
      rfl
  | other hserve =>
      refine h.other_step (h.healthy.serve hserve) h.pushes h.replies rfl rfl
        fun _ _ _ hs => ?_
      exact ⟨hs.toServer, hs.unsent, hs.toClient, hs.responseQ, hs.direct⟩

end Steps

/-! ## The result -/

/-- In every run whose commands and notifications are prompt, the lines `SendCommand`
returns for a command are lines of the reply to this command. -/
theorem returned_of_run {clock : ℕ → LocalTime} {marketData : Bool} {history : List Event}
    {server : Server} {sock : Socket} {t : List WindowAction} {s : Window}
    (hstart : serveAll exec (.off .created clock) (.startUp marketData :: history) =
      some server)
    (h : window.Run (fun _ s a => prompt s a) (.start sock server) t s) :
    ∀ out ∈ s.returned, ∀ line ∈ out.lines, line.origin = .reply out.number := by
  have hok : WindowOk s := by
    induction h with
    | nil =>
        exact ⟨healthy_of_history hstart, List.forall_mem_nil _, List.forall_mem_nil _,
          List.forall_mem_nil _, nofun, nofun⟩
    | snoc _ hnext hprompt ih => exact ih.step (step_of_window hnext) hprompt
  exact hok.returned

/-- Ann logs in, and her GET_EMAIL times out. -/
def timedOut : List WindowAction :=
  [.call (.login annName annPassword), .main,
    .session, .session, .main, .main,
    .call (.getEmail annName), .main, .giveUp]

/-- Then she deletes an alert that does not exist. -/
def deleteUnknown : WindowAction := .call (.delete ⟨ascii "1", by decide +kernel⟩)

/-- The connection of a new server on which she has registered. -/
def registered : Option Server :=
  serveAll exec (.off .created fun _ => ⟨2025, 6, 0, 8, 55, 0⟩)
    [.startUp true, .connect 7, .line 7 (ascii "REGISTER ann pw a@b")]

set_option maxRecDepth 10000 in
/-- The late reply is in the queue before the next command, and is dropped. -/
theorem late_reply_is_cleared : ∃ server t s, registered = some server ∧
    window.Run (fun _ s a => prompt s a) (.start 7 server) t s ∧
    s.returned.map (fun out => (out.number, out.lines.length)) =
    [(1, 1), (2, 0), (3, 1)] ∧
    ∀ out ∈ s.returned, ∀ line ∈ out.lines, line.origin = .reply out.number := by
  have hstate : registered.map (fun server =>
      (window.followIf (fun _ s a => prompt s a) [] (.start 7 server)
        (timedOut ++ [.session, .session, .receiver, deleteUnknown, .main,
          .session, .session, .receiver, .main])).map fun s =>
            s.returned.map fun out => (out.number, out.lines.length)) =
      some (some [(1, 1), (2, 0), (3, 1)]) := by decide +kernel
  obtain ⟨server, hstart, hrun⟩ := Option.map_eq_some_iff.mp hstate
  obtain ⟨s, hfollow, hreturned⟩ := Option.map_eq_some_iff.mp hrun
  have hrun := Machine.Run.followIf_append .nil hfollow
  exact ⟨server, _, s, hstart, hrun, hreturned, returned_of_run hstart hrun⟩

set_option maxRecDepth 10000 in
/-- The late reply comes after the clear: DELETE returns the OK of GET_EMAIL. -/
theorem late_reply_is_returned :
    ¬ ∀ clock marketData history server sock t s,
      serveAll exec (.off .created clock) (.startUp marketData :: history) = some server →
      window.AnyRun (.start sock server) t s →
      ∀ out ∈ s.returned, ∀ line ∈ out.lines, line.origin = .reply out.number := by
  intro hall
  have hstate : registered.map (fun server => (window.follow (.start 7 server)
      (timedOut ++ [deleteUnknown, .main, .session, .session, .receiver, .main])).map
      fun s =>
        s.returned.map fun out => (out.number, out.lines)) =
      some (some [(1, [⟨.reply 1, ascii "OK"⟩]), (2, []),
        (3, [⟨.reply 2, ascii "OK a@b"⟩])]) := by decide +kernel
  obtain ⟨server, hstart, hrun⟩ := Option.map_eq_some_iff.mp hstate
  obtain ⟨s, hfollow, hreturned⟩ := Option.map_eq_some_iff.mp hrun
  have hown := hall _ _ _ server 7 _ s hstart (Machine.run_of_follow hfollow)
  have hlast : (3, [⟨.reply 2, ascii "OK a@b"⟩]) ∈
      s.returned.map fun out => (out.number, out.lines) := by
    rw [hreturned]
    simp
  obtain ⟨out, hout, hparts⟩ := List.mem_map.mp hlast
  obtain ⟨hnumber, hlines⟩ := Prod.mk.inj hparts
  have hline :=
    hown out hout ⟨.reply 2, ascii "OK a@b"⟩ (hlines ▸ List.mem_singleton_self _)
  rw [hnumber] at hline
  exact absurd hline (by decide)

end CloudAlert
