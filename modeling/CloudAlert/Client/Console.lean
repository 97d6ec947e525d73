import CloudAlert.Client.ExchangeRuns

/-!
# The console client

`main` asks for a choice, sends a command and prints the lines that `RecvThread` puts into
`g_recvQ`, up to the end of the reply. The queue is one for replies and notifications:
`DoCmd` and `DoCmdOneLine` print a TRIGGERED line and go on reading, and `DrainAlerts`
prints the TRIGGERED lines that have come while the user was typing and throws the other
ones away. `console` is the machine of the two threads with the session and the
notification worker at the other end.

The commands are formatted into buffers on the stack. What the prompts read is short
enough for most of them (`fits_iff`).
-/

namespace CloudAlert

open Program

/-! ## The menu -/

/-- The last four decimal digits of `n`. -/
def pad4 (n : ℕ) : Bytes := pad2 (n / 100) ++ pad2 (n % 100)

/-- `%.4f`. -/
def fmtPrice4 (x : ℚ) : Bytes :=
  let n := roundHalfEven (|x| * 10000)
  (if x < 0 then [45] else []) ++ fmtNat (n / 10000) ++ 46 :: pad4 (n % 10000)

theorem plain_fmtPrice4 (x : ℚ) : ∀ b ∈ fmtPrice4 x, Plain b := by
  have hpad : ∀ n, ∀ b ∈ pad4 n, Plain b :=
    fun n => plain_append (plain_pad2 _) (plain_pad2 _)
  unfold fmtPrice4
  refine plain_append (plain_append ?_ (plain_fmtNat _))
    (List.forall_mem_cons.mpr ⟨by decide, hpad _⟩)
  split
  · exact List.forall_mem_singleton.mpr (by decide)
  · exact List.forall_mem_nil _

/-- A price in a command. -/
def priceField (x : ℚ) : Field := ⟨fmtPrice4 x, plain_fmtPrice4 x⟩

/-- An id in a command. -/
def idField (id : ℤ) : Field := ⟨fmtInt id, plain_fmtInt id⟩

/-- A choice, with what is typed at its prompts. -/
inductive MenuChoice where
  | register (user pass email : Field)
  | login (user pass : Field)
  | setEmail (pass email : Field)
  | addPrice (contract : Field) (cond : ℤ) (price : ℚ)
  | addTime (contract timestr : Field)
  | deleteAlert (id : ℤ)
  | modifyPrice (id : ℤ) (contract : Field) (cond : ℤ) (price : ℚ)
  | modifyTime (id : ℤ) (contract timestr : Field)
  | query (status : ℤ)
  | invalid                    -- not a number
  | unknown                    -- a number that is not in the menu
  | exit
deriving DecidableEq

namespace MenuChoice

/-- The choice is for a user who is logged in. -/
def needsLogin : MenuChoice → Bool
  | register _ _ _ | login _ _ | invalid | unknown | exit => false
  | _ => true

/-- The command, and the size of `cmd`. -/
def command (username : Field) : MenuChoice → Option (ClientCommand × ℕ)
  | register user pass email => some (.register user pass email, 320)
  | login user pass => some (.login user pass, 256)
  | setEmail pass email => some (.setEmail username pass email, 256)
  | addPrice contract cond price =>
      some (.addPrice username contract (priceField price) cond, 256)
  | addTime contract timestr => some (.addTime username contract timestr, 256)
  | deleteAlert id => some (.delete (idField id), 64)
  | modifyPrice id contract cond price =>
      some (.modifyPrice (idField id) contract (priceField price) cond, 256)
  | modifyTime id contract timestr =>
      some (.modifyTime (idField id) contract timestr, 256)
  | query status => some (.query username status, 128)
  | invalid | unknown | exit => none

/-- An `int`. -/
def IsInt (n : ℤ) : Prop := -2147483648 ≤ n ∧ n ≤ 2147483647

instance (n : ℤ) : Decidable (IsInt n) := inferInstanceAs (Decidable (_ ∧ _))

/-- What `fgets` and `scanf_s` can read into the variables. -/
def Typed : MenuChoice → Prop
  | register user pass email =>
      user.val.length < 64 ∧ pass.val.length < 64 ∧ email.val.length < 128
  | login user pass => user.val.length < 64 ∧ pass.val.length < 64
  | setEmail pass email => pass.val.length < 64 ∧ email.val.length < 128
  | addPrice contract cond _ => contract.val.length < 32 ∧ IsInt cond
  | addTime contract timestr => contract.val.length < 32 ∧ timestr.val.length < 32
  | deleteAlert id => IsInt id
  | modifyPrice id contract cond _ => IsInt id ∧ contract.val.length < 32 ∧ IsInt cond
  | modifyTime id contract timestr =>
      IsInt id ∧ contract.val.length < 32 ∧ timestr.val.length < 32
  | query status => IsInt status
  | invalid | unknown | exit => True

instance : DecidablePred Typed
  | register _ _ _ | addPrice _ _ _ | addTime _ _ | setEmail _ _ | login _ _ =>
      inferInstanceAs (Decidable (_ ∧ _))
  | modifyPrice _ _ _ _ | modifyTime _ _ _ => inferInstanceAs (Decidable (_ ∧ _))
  | deleteAlert id => inferInstanceAs (Decidable (IsInt id))
  | query status => inferInstanceAs (Decidable (IsInt status))
  | invalid | unknown | exit => .isTrue trivial

/-- The command fits its buffer. -/
def Fits (username : Field) : MenuChoice → Prop
  | setEmail pass email =>
      username.val.length + pass.val.length + email.val.length < 244
  | addPrice contract cond price =>
      username.val.length + contract.val.length + (fmtPrice4 price).length +
        intWidth cond < 243
  | modifyPrice id contract cond price =>
      intWidth id + contract.val.length + (fmtPrice4 price).length + intWidth cond < 240
  | _ => True

end MenuChoice

/-! ## The parties -/

/-- What is printed. -/
inductive ConsoleOutput where
  | alert (line : Bytes)       -- `[*** ALERT TRIGGERED ***]`
  | reply (line : Bytes)       -- `  <- `
  | text (s : String)
deriving DecidableEq

/-- Where the main thread is. -/
inductive ConsoleMain where
  | draining                                            -- at `DrainAlerts`
  | choosing                                            -- at the menu
  | sending (c : ClientCommand)                         -- at `SendLine`
  | reading (c : ClientCommand) (lines : List Bytes)    -- at `QueueRead`
  | exited
deriving DecidableEq

/-- The connection and the two parties at its ends. -/
structure Console where
  server : Server
  toServer : Bytes             -- sent and not yet received
  unsent : List Bytes          -- lines the session has still to send
  toClient : Bytes             -- sent and not yet received
  recvQ : List Bytes
  username : Field
  main : ConsoleMain
  printed : List ConsoleOutput
  -- what has happened
  asked : List Bytes                      -- commands of the choices
  handled : List (Bytes × List Bytes)     -- lines dispatched, with the replies
  returned : List (Bytes × List Bytes)    -- commands done, with the lines printed
  pushed : List Bytes                     -- messages the worker has sent

/-- What can happen. -/
inductive ConsoleAction where
  | main
  | choose (m : MenuChoice)
  | sendFails
  | timeout
  | session
  | receiver
  | push (k : ℕ)
  | other (e : Event)

/-- The command is sent by `DoCmdOneLine`. -/
def ClientCommand.oneLine : ClientCommand → Bool
  | .register _ _ _ | .login _ _ => true
  | _ => false

/-- No more lines are read after this one. -/
def ClientCommand.lastLine (c : ClientCommand) (line : Bytes) : Bool :=
  c.oneLine || line = ascii "END" || startsWith (ascii "OK") line ||
    startsWith (ascii "ERR") line

namespace Console

/-- Prints some lines. -/
def print (s : Console) (out : List ConsoleOutput) : Console :=
  { s with printed := s.printed ++ out }

/-- What `DoCmd` and `DoCmdOneLine` print when `QueueRead` returns no line. -/
def noResponse (c : ClientCommand) : List ConsoleOutput :=
  if c.oneLine then
    [.text "[ERR] Response timeout (server may be down)", .text "  <- (no response)"]
  else [.text "[ERR] Response timeout (server may be down)"]

/-- What is printed after a line of the reply. -/
def remark (c : ClientCommand) (line : Bytes) : List ConsoleOutput :=
  match c with
  | .register _ _ _ =>
      if startsWith (ascii "OK") line then
        [.text "  [INFO] Registration successful. Now use Choice 2 to login."]
      else []
  | _ => []

/-- `g_username` after a line of the reply. -/
def nameAfter (c : ClientCommand) (line : Bytes) (username : Field) : Field :=
  match c with
  | .login user _ => if startsWith (ascii "OK") line then user else username
  | _ => username

/-- What a line of the reply does. -/
def takeLine (s : Console) (c : ClientCommand) (lines : List Bytes) (line : Bytes) :
    Console :=
  { s with
    username := nameAfter c line s.username
    main := if c.lastLine line then .draining else .reading c (lines ++ [line])
    printed := s.printed ++ .reply line :: remark c line
    returned :=
      if c.lastLine line then s.returned ++ [(c.text, lines ++ [line])] else s.returned }

/-- The next step of the main thread. -/
def stepMain (s : Console) : Option Console :=
  match s.main with
  | .draining => some { s.print ((s.recvQ.filter isTriggered).map .alert) with
      recvQ := [], main := .choosing }
  | .sending c => some { s with
      toServer := s.toServer ++ clientSendLine c.text, main := .reading c [] }
  | .reading c lines =>
      match s.recvQ with
      | [] => none
      | line :: rest =>
          let s := { s with recvQ := rest }
          if line = [] then some { s.print (noResponse c) with main := .draining }
          else if isTriggered line then some (s.print [.alert line])
          else some (s.takeLine c lines line)
  | .choosing | .exited => none

/-- The choice that is made. A command that does not fit its buffer ends the process. -/
def choose (s : Console) (m : MenuChoice) : Console :=
  if m.needsLogin && s.username.val = [] then
    { s.print [.text "[ERR] Please login first"] with main := .draining }
  else
    match m.command s.username with
    | some (c, size) =>
        if (snprintf size c.text).isSome then
          { s with main := .sending c, asked := s.asked ++ [c.text] }
        else { s with main := .exited }
    | none =>
        match m with
        | .exit => { s.print [.text "Disconnected."] with main := .exited }
        | .unknown => { s.print [.text "[ERR] Unknown choice"] with main := .draining }
        | _ => { s.print [.text "[ERR] Invalid choice"] with main := .draining }

/-- The next step of the session thread. -/
def stepSession (sock : Socket) (s : Console) : Option Console :=
  match s.unsent with
  | resp :: rest => some { s with
      unsent := rest, toClient := s.toClient ++ serverSendLine resp }
  | [] =>
      match serverRecvLine [] s.toServer with
      | none => none
      | some (line, rest) =>
          if line = [] then some { s with toServer := rest }
          else
            match serve exec s.server (.line sock line),
              s.server.reply exec sock line with
            | some server, some reply => some { s with
                server := server, toServer := rest, unsent := reply.lines,
                handled := s.handled ++ [(line, reply.lines)] }
            | _, _ => none

end Console

/-- The console and the server on one connection. -/
def console (sock : Socket) : Machine Console ConsoleAction where
  next s
    | .main => s.stepMain
    | .choose m =>
        match s.main with
        | .choosing => if m.Typed then some (s.choose m) else none
        | _ => none
    | .sendFails =>
        match s.main with
        | .sending c => some { s.print (if c.oneLine then
            [.text "[ERR] Send failed", .text "  <- (no response)"]
            else [.text "[ERR] Send failed"]) with main := .draining }
        | _ => none
    | .timeout =>
        match s.main, s.recvQ with
        | .reading c _, [] =>
            some { s.print (Console.noResponse c) with main := .draining }
        | _, _ => none
    | .session => s.stepSession sock
    | .receiver =>
        (clientRecvLine [] s.toClient).map fun (line, rest) =>
          { s with toClient := rest, recvQ := s.recvQ ++ [line] }
    | .push k => s.server.world.tasks[k]?.map fun task =>
        { s with toClient := s.toClient ++ task.msg, pushed := s.pushed ++ [task.msg] }
    | .other e =>
        if e.spares sock then
          (serve exec s.server e).map fun server => { s with server := server }
        else none

/-- The console on a new connection. -/
def Console.start (server : Server) : Console where
  server := server
  toServer := []
  unsent := []
  toClient := []
  recvQ := []
  username := ⟨[], List.forall_mem_nil _⟩
  main := .draining
  printed := []
  asked := []
  handled := []
  returned := []
  pushed := []

/-- What a choice leads to. -/
inductive Chosen (s : Console) (m : MenuChoice) : Console → Prop where
  | asked {c size} (hcommand : m.command s.username = some (c, size))
      (hfits : c.text.length < size) :
      Chosen s m { s with main := .sending c, asked := s.asked ++ [c.text] }
  | tooLong : Chosen s m { s with main := .exited }
  | exit : Chosen s m { s.print [.text "Disconnected."] with main := .exited }
  | back {text} : Chosen s m { s.print [.text text] with main := .draining }

theorem chosen_choose (s : Console) (m : MenuChoice) : Chosen s m (s.choose m) := by
  unfold Console.choose
  split
  · exact .back
  · split
    · rename_i hcommand
      rw [snprintf]
      split
      · rename_i hfits
        exact .asked hcommand hfits
      · exact .tooLong
    · split
      · exact .exit
      · exact .back
      · exact .back

/-- What an action can do. -/
inductive ConsoleStep (sock : Socket) (s : Console) : ConsoleAction → Console → Prop where
  | drain (hmain : s.main = .draining) : ConsoleStep sock s .main
      { s.print ((s.recvQ.filter isTriggered).map .alert) with
          recvQ := [], main := .choosing }
  | send {c} (hmain : s.main = .sending c) : ConsoleStep sock s .main { s with
      toServer := s.toServer ++ clientSendLine c.text, main := .reading c [] }
  | emptyLine {c lines rest} (hmain : s.main = .reading c lines)
      (hqueue : s.recvQ = [] :: rest) : ConsoleStep sock s .main
      { s.print (Console.noResponse c) with recvQ := rest, main := .draining }
  | alert {c lines line rest} (hmain : s.main = .reading c lines)
      (hqueue : s.recvQ = line :: rest) (htriggered : isTriggered line = true) :
      ConsoleStep sock s .main { s.print [.alert line] with recvQ := rest }
  | line {c lines line rest} (hmain : s.main = .reading c lines)
      (hqueue : s.recvQ = line :: rest) (htriggered : isTriggered line = false) :
      ConsoleStep sock s .main ({ s with recvQ := rest }.takeLine c lines line)
  | choose {m} (hmain : s.main = .choosing) (htyped : m.Typed) :
      ConsoleStep sock s (.choose m) (s.choose m)
  | sendFails {c} (out : List String) (hmain : s.main = .sending c) :
      ConsoleStep sock s .sendFails
      { s.print (.text "[ERR] Send failed" :: out.map .text) with main := .draining }
  | timeout {c lines} (hmain : s.main = .reading c lines) (hqueue : s.recvQ = []) :
      ConsoleStep sock s .timeout { s.print (Console.noResponse c) with
        main := .draining }
  | answer {resp rest} (hunsent : s.unsent = resp :: rest) :
      ConsoleStep sock s .session { s with
        unsent := rest, toClient := s.toClient ++ serverSendLine resp }
  | skip {rest} (hunsent : s.unsent = [])
      (hrecv : serverRecvLine [] s.toServer = some ([], rest)) :
      ConsoleStep sock s .session { s with toServer := rest }
  | dispatch {line rest server reply} (hunsent : s.unsent = [])
      (hrecv : serverRecvLine [] s.toServer = some (line, rest)) (hline : line ≠ [])
      (hserve : serve exec s.server (.line sock line) = some server)
      (hreply : s.server.reply exec sock line = some reply) :
      ConsoleStep sock s .session { s with
        server := server, toServer := rest, unsent := reply.lines,
        handled := s.handled ++ [(line, reply.lines)] }
  | receive {line rest} (hrecv : clientRecvLine [] s.toClient = some (line, rest)) :
      ConsoleStep sock s .receiver { s with toClient := rest, recvQ := s.recvQ ++ [line] }
  | push {k task} (htask : s.server.world.tasks[k]? = some task) :
      ConsoleStep sock s (.push k) { s with
        toClient := s.toClient ++ task.msg, pushed := s.pushed ++ [task.msg] }
  | other {e server} (hspares : e.spares sock = true)
      (hserve : serve exec s.server e = some server) :
      ConsoleStep sock s (.other e) { s with server := server }

theorem step_of_console {sock : Socket} {s s' : Console} {a : ConsoleAction}
    (h : (console sock).next s a = some s') : ConsoleStep sock s a s' := by
  cases a with
  | main =>
      simp only [console, Console.stepMain] at h
      split at h
      · rename_i hmain
        obtain rfl := Option.some.inj h
        exact .drain hmain
      · rename_i hmain
        obtain rfl := Option.some.inj h
        exact .send hmain
      · rename_i hmain
        split at h
        · cases h
        · rename_i hqueue
          split at h
          · rename_i hnil
            subst hnil
            obtain rfl := Option.some.inj h
            exact .emptyLine hmain hqueue
          · split at h
            · rename_i htriggered
              obtain rfl := Option.some.inj h
              exact .alert hmain hqueue htriggered
            · rename_i htriggered
              obtain rfl := Option.some.inj h
              exact .line hmain hqueue (Bool.eq_false_iff.mpr htriggered)
      · cases h
      · cases h
  | choose m =>
      simp only [console] at h
      split at h
      · rename_i hmain
        obtain ⟨htyped, h⟩ := Option.ite_none_right_eq_some.mp h
        obtain rfl := Option.some.inj h
        exact .choose hmain htyped
      · cases h
  | sendFails =>
      simp only [console] at h
      split at h
      · rename_i c hmain
        obtain rfl := Option.some.inj h
        by_cases hone : c.oneLine = true
        · rw [if_pos hone]
          exact .sendFails ["  <- (no response)"] hmain
        · rw [if_neg hone]
          exact .sendFails [] hmain
      · cases h
  | timeout =>
      simp only [console] at h
      split at h
      · rename_i hmain hqueue
        obtain rfl := Option.some.inj h
        exact .timeout hmain hqueue
      · cases h
  | session =>
      simp only [console, Console.stepSession] at h
      split at h
      · rename_i hunsent
        obtain rfl := Option.some.inj h
        exact .answer hunsent
      · rename_i hunsent
        split at h
        · cases h
        · rename_i hrecv
          split at h
          · rename_i hnil
            subst hnil
            obtain rfl := Option.some.inj h
            exact .skip hunsent hrecv
          · rename_i hline
            split at h
            · rename_i hserve hreply
              obtain rfl := Option.some.inj h
              exact .dispatch hunsent hrecv hline hserve hreply
            · cases h
  | receiver =>
      obtain ⟨⟨line, rest⟩, hrecv, rfl⟩ := Option.map_eq_some_iff.mp h
      exact .receive hrecv
  | push k =>
      obtain ⟨task, htask, rfl⟩ := Option.map_eq_some_iff.mp h
      exact .push htask
  | other e =>
      obtain ⟨hspares, h⟩ := Option.ite_none_right_eq_some.mp h
      obtain ⟨server, hserve, rfl⟩ := Option.map_eq_some_iff.mp h
      exact .other hspares hserve

/-! ## Commands and their buffers -/

theorem intWidth_le {n : ℤ} (h : MenuChoice.IsInt n) : intWidth n ≤ 11 := by
  obtain ⟨hlow, hhigh⟩ := h
  have hlog : Nat.log 10 n.natAbs ≤ Nat.log 10 2147483648 := Nat.log_mono_right (by omega)
  have hten : Nat.log 10 2147483648 = 9 := by decide +kernel
  unfold intWidth natWidth
  split <;> omega

/-- The length of the command. -/
def MenuChoice.width (username : Field) : MenuChoice → ℕ
  | register user pass email => 11 + user.val.length + pass.val.length + email.val.length
  | login user pass => 7 + user.val.length + pass.val.length
  | setEmail pass email => 12 + username.val.length + pass.val.length + email.val.length
  | addPrice contract cond price =>
      13 + username.val.length + contract.val.length +
        (fmtPrice4 price).length + intWidth cond
  | addTime contract timestr =>
      11 + username.val.length + contract.val.length + timestr.val.length
  | deleteAlert id => 7 + intWidth id
  | modifyPrice id contract cond price =>
      16 + intWidth id + contract.val.length + (fmtPrice4 price).length + intWidth cond
  | modifyTime id contract timestr =>
      14 + intWidth id + contract.val.length + timestr.val.length
  | query status => 7 + username.val.length + intWidth status
  | invalid | unknown | exit => 0

theorem length_command {m : MenuChoice} {username : Field} {c : ClientCommand} {size : ℕ}
    (h : m.command username = some (c, size)) : c.text.length = m.width username := by
  have length_ascii : ∀ word : String, (ascii word).length = word.toList.length :=
    fun word => List.length_map _
  cases m with
  | invalid | unknown | exit => cases h
  | _ =>
      cases h
      simp [ClientCommand.length_text, ClientCommand.word, ClientCommand.arguments,
        MenuChoice.width, fmtInt_length, priceField, idField, length_ascii]
      omega

/-- What is typed fits the buffer, except where the prompts read more than it has room
for. -/
theorem fits_iff {m : MenuChoice} {username : Field} {c : ClientCommand} {size : ℕ}
    (htyped : m.Typed) (hname : username.val.length < 64)
    (hcommand : m.command username = some (c, size)) :
    c.text.length < size ↔ m.Fits username := by
  rw [length_command hcommand]
  cases m with
  | invalid | unknown | exit => cases hcommand
  | setEmail | addPrice | modifyPrice =>
      cases hcommand
      simp only [MenuChoice.width, MenuChoice.Fits]
      omega
  | register | login | addTime =>
      cases hcommand
      simp only [MenuChoice.Typed] at htyped
      simp only [MenuChoice.width]
      exact iff_of_true (by omega) trivial
  | deleteAlert n | query n =>
      cases hcommand
      have hwidth := intWidth_le htyped
      simp only [MenuChoice.width]
      exact iff_of_true (by omega) trivial
  | modifyTime id contract timestr =>
      cases hcommand
      obtain ⟨hid, hcontract, htimestr⟩ := htyped
      have hwidth := intWidth_le hid
      simp only [MenuChoice.width]
      exact iff_of_true (by omega) trivial

/-! ## The end of the process -/

/-- The command in progress. -/
def ConsoleMain.command : ConsoleMain → Option ClientCommand
  | .sending c | .reading c _ => some c
  | _ => none

/-- `g_username` is long enough for the name, and for the one it may become. -/
structure NameFits (s : Console) : Prop where
  name : s.username.val.length < 64
  login : ∀ user pass, s.main.command = some (.login user pass) → user.val.length < 64

theorem nameFits_start (server : Server) : NameFits (.start server) :=
  ⟨Nat.zero_lt_succ _, fun _ _ h => nomatch h⟩

theorem NameFits.congr {s s' : Console} (h : NameFits s)
    (hname : s'.username = s.username)
    (hmain : s'.main.command = s.main.command ∨ s'.main.command = none) :
    NameFits s' := by
  refine ⟨hname ▸ h.name, fun user pass hlogin => ?_⟩
  rcases hmain with heq | hnone
  · exact h.login user pass (heq ▸ hlogin)
  · rw [hnone] at hlogin
    cases hlogin

/-- The choice of a name is made at the prompt of `LOGIN`. -/
theorem NameFits.chosen {s s' : Console} {m : MenuChoice} (h : NameFits s)
    (htyped : m.Typed) (hchosen : Chosen s m s') : NameFits s' := by
  cases hchosen with
  | tooLong | exit | back => exact h.congr rfl (.inr rfl)
  | @asked c size hcommand =>
      refine ⟨h.name, fun user pass hlogin => ?_⟩
      obtain rfl := Option.some.inj hlogin
      cases m with
      | login user' pass' =>
          obtain ⟨hc, -⟩ := Prod.mk.inj (Option.some.inj hcommand)
          obtain ⟨rfl, rfl⟩ := ClientCommand.login.inj hc
          exact htyped.1
      | _ => cases hcommand

theorem NameFits.step {sock : Socket} {s s' : Console} {a : ConsoleAction}
    (h : NameFits s) (hstep : ConsoleStep sock s a s') : NameFits s' := by
  cases hstep with
  | choose _ htyped => exact h.chosen htyped (chosen_choose _ _)
  | drain | emptyLine | sendFails | timeout => exact h.congr rfl (.inr rfl)
  | send hmain => exact h.congr rfl (.inl (by rw [hmain]; rfl))
  | alert | answer | skip | dispatch | receive | push | other =>
      exact h.congr rfl (.inl rfl)
  | @line c lines line rest hmain =>
      have hcommand : s.main.command = some c := by
        rw [hmain]
        rfl
      refine ⟨?_, fun user pass hlogin => h.login user pass ?_⟩
      · cases c with
        | login user pass =>
            dsimp only [Console.takeLine, Console.nameAfter]
            split
            · exact h.login user pass hcommand
            · exact h.name
        | _ => exact h.name
      · dsimp only [Console.takeLine] at hlogin
        split at hlogin
        · cases hlogin
        · rw [hcommand]
          exact hlogin

/-- The choice keeps the process running. -/
def MenuChoice.Stays (username : Field) (m : MenuChoice) : Prop :=
  m ≠ .exit ∧ (m.needsLogin = true → username.val ≠ [] → m.Fits username)

/-- The action keeps the process running. -/
def ConsoleAction.Stays (s : Console) : ConsoleAction → Prop
  | .choose m => m.Stays s.username
  | _ => True

theorem fits_of_not_needsLogin {m : MenuChoice} (username : Field)
    (h : m.needsLogin = false) : m.Fits username := by
  cases m with
  | register | login | invalid | unknown | exit => trivial
  | _ => cases h

theorem choose_stays_iff {s : Console} {m : MenuChoice} (hs : NameFits s)
    (htyped : m.Typed) : (s.choose m).main ≠ .exited ↔ m.Stays s.username := by
  unfold Console.choose
  split
  · rename_i hrefused
    obtain ⟨hlogin, hname⟩ := (Bool.and_eq_true _ _).mp hrefused
    refine iff_of_true nofun ⟨?_, fun _ h => absurd (of_decide_eq_true hname) h⟩
    rintro rfl
    cases hlogin
  · rename_i hallowed
    split
    · rename_i c size hcommand
      have hexit : m ≠ .exit := by
        rintro rfl
        cases hcommand
      have hneeded : m.Stays s.username ↔ m.Fits s.username := by
        refine ⟨fun h => ?_, fun h => ⟨hexit, fun _ _ => h⟩⟩
        by_cases hlogin : m.needsLogin = true
        · refine h.2 hlogin fun hname => hallowed ?_
          rw [hlogin, Bool.true_and]
          exact decide_eq_true hname
        · exact fits_of_not_needsLogin _ (Bool.eq_false_iff.mpr hlogin)
      rw [hneeded, ← fits_iff htyped hs.name hcommand, snprintf]
      split
      · rename_i hfits
        exact iff_of_true nofun hfits
      · rename_i hlong
        exact iff_of_false (fun h => h rfl) hlong
    · cases m with
      | exit => exact iff_of_false (fun h => h rfl) fun h => h.1 rfl
      | invalid | unknown => exact iff_of_true nofun ⟨nofun, nofun⟩
      | _ => rename_i hcommand; cases hcommand

theorem ConsoleStep.stays_iff {sock : Socket} {s s' : Console} {a : ConsoleAction}
    (h : ConsoleStep sock s a s') (hs : NameFits s) :
    s'.main ≠ .exited ↔ s.main ≠ .exited ∧ a.Stays s := by
  have hruns : ∀ main, s.main = main → main ≠ .exited → a.Stays s →
      (s.main ≠ .exited ∧ a.Stays s) := fun main hmain hne hstays => ⟨hmain ▸ hne, hstays⟩
  cases h with
  | choose hmain htyped =>
      exact (choose_stays_iff hs htyped).trans ⟨fun h => ⟨hmain ▸ nofun, h⟩, And.right⟩
  | drain hmain => exact iff_of_true nofun (hruns _ hmain nofun trivial)
  | send hmain => exact iff_of_true nofun (hruns _ hmain nofun trivial)
  | emptyLine hmain => exact iff_of_true nofun (hruns _ hmain nofun trivial)
  | sendFails _ hmain => exact iff_of_true nofun (hruns _ hmain nofun trivial)
  | timeout hmain => exact iff_of_true nofun (hruns _ hmain nofun trivial)
  | @line c lines line _ hmain =>
      refine iff_of_true ?_ (hruns _ hmain nofun trivial)
      dsimp only [Console.takeLine]
      split <;> exact nofun
  | alert | answer | skip | dispatch | receive | push | other =>
      exact ⟨fun h => ⟨h, trivial⟩, And.left⟩

/-- The console runs until a choice ends it: exit, or a command for a user who is logged
in that does not fit its buffer. Those are `SET_EMAIL`, `ADD_PRICE` and `MODIFY_PRICE`; no
answer of the server and no delay ends it. -/
theorem console_stays_iff {sock : Socket} {server : Server} {t : List ConsoleAction}
    {s : Console} :
    (console sock).Run (fun _ s a => a.Stays s) (.start server) t s ↔
      (console sock).AnyRun (.start server) t s ∧ s.main ≠ .exited := by
  have hfits : ∀ s a s', NameFits s → (console sock).next s a = some s' → NameFits s' :=
    fun _ _ _ hs hnext => hs.step (step_of_console hnext)
  have hstays : ∀ s a s', NameFits s → (console sock).next s a = some s' →
      (s'.main ≠ .exited ↔ s.main ≠ .exited ∧ a.Stays s) :=
    fun _ _ _ hs hnext => (step_of_console hnext).stays_iff hs
  exact Machine.run_iff_of_step hfits hstays (nameFits_start server) nofun

end CloudAlert
