import CloudAlert.Client.MainFrame
import CloudAlert.Program.Machine

/-!
# The connection before a login

`EnsureConnected` makes a connection when `m_connected` is not set. Before a login has
succeeded there is no receiver thread that would report the end of the connection, and a
`SendCommand` that fails leaves `m_connected` as it is: the next attempt goes over the
same socket. `attempts` is the machine of the dialogs with the server as their
environment; `attempts_run_iff` says that a fresh connection follows a failure in exactly
the runs in which no exchange fails, and `locked_out` what becomes of the others.
-/

namespace CloudAlert

/-! ## The machine -/

/-- A call of `LoginUser` or of `RegisterUser`. -/
inductive Attempt where
  | login (user password : Field)
  | register (user password email : Field)
deriving DecidableEq

/-- The command it sends. -/
def Attempt.command : Attempt → ClientCommand
  | .login user password => .login user password
  | .register user password email => .register user password email

/-- Where the main thread is. -/
inductive AttemptState where
  | idle
  | sending (a : Attempt)                            -- at `m_client.SendLine`
  | checking (a : Attempt) (lines : List Bytes)      -- at `GetTickCount`
  | receiving (a : Attempt) (lines : List Bytes)     -- at `m_client.RecvLine`
  | starting                                         -- at `StartReceiver`
  | loggedIn
deriving DecidableEq

/-- How an attempt ended: whether it went through `Connect`, and whether a send or a
receive has failed. -/
structure AttemptEnd where
  connects : Bool
  broken : Bool
deriving DecidableEq

/-- The window and the server, before a login has succeeded. -/
structure Attempts where
  listening : Bool             -- `Server.exe` runs
  sock : Option ℕ              -- `m_sock`; the sockets are numbered as they are made
  sockets : ℕ
  peerOpen : Bool              -- the server's end of `m_sock` is open
  toServer : List Bytes
  toClient : List Bytes        -- sent and not yet received
  connected : Bool             -- `m_connected`
  closing : Bool               -- `m_closing`
  main : AttemptState
  -- what has happened
  connects : Bool              -- has the attempt in progress called `Connect`
  brokenOn : List ℕ            -- sockets on which a send or a receive has failed
  ended : List AttemptEnd
deriving DecidableEq

/-- What can happen: an attempt is made, with what `Connect` would return; a step of the
main thread, with what its call returns; the server sends a line, closes the connection,
goes away and comes back. -/
inductive AttemptAction where
  | attempt (a : Attempt) (connects : Bool)
  | send (ok : Bool)
  | check (timeUp : Bool)
  | receive (ok : Bool)
  | start (ok : Bool)
  | reply (line : Bytes)
  | close
  | goAway
  | comeBack
deriving DecidableEq

/-- The attempt is over. -/
def Attempts.finish (s : Attempts) (broken : Bool) : Attempts :=
  { s with main := .idle, ended := s.ended ++ [⟨s.connects, broken⟩] }

/-- A send or a receive has failed, and `SendCommand` returns false. -/
def Attempts.breakOff (s : Attempts) : Attempts :=
  { s.finish true with brokenOn := s.brokenOn ++ s.sock.toList }

/-- `LoginUser` or `RegisterUser` up to `SendCommand`: `EnsureConnected`. -/
def Attempts.ensureConnected (s : Attempts) (a : Attempt) (connects : Bool) : Attempts :=
  if s.connected then { s with connects := false, main := .sending a }
  else if connects && s.listening then { s with
    sock := some s.sockets, sockets := s.sockets + 1, peerOpen := true, toServer := [],
    toClient := [], connected := true, closing := false, connects :=
      true, main := .sending a }
  else { s with
    sock := none, sockets := s.sockets + 1, connects := true,
    ended := s.ended ++ [⟨true, false⟩] }

/-- `RecvLine` has returned a line. -/
def Attempts.take (s : Attempts) (a : Attempt) (lines : List Bytes) (line : Bytes) :
    Attempts :=
  if stops a.command.expectEnd line then
    match a with
    | .login _ _ =>
        if isOk (lines ++ [line]) then { s with main := .starting } else s.finish false
    | .register _ _ _ => s.finish false
  else { s with main := .checking a (lines ++ [line]) }

/-- The dialogs with the server. A send or a receive fails only if the server has closed
the connection, and it may succeed even then. -/
def attempts : Machine Attempts AttemptAction where
  next s
    | .attempt a connects =>
        if s.main = .idle then some (s.ensureConnected a connects) else none
    | .send ok =>
        match s.main with
        | .sending a =>
            if ok then some { s with
              toServer := s.toServer ++ [a.command.text], main := .checking a [] }
            else if s.peerOpen then none
            else some s.breakOff
        | _ => none
    | .check timeUp =>
        match s.main with
        | .checking a lines =>
            if timeUp then some (s.finish false) else some { s with
              main := .receiving a lines }
        | _ => none
    | .receive ok =>
        match s.main with
        | .receiving a lines =>
            if ok then
              match s.toClient with
              | line :: rest =>
                  some (Attempts.take { s with toClient := rest } a lines line)
              | [] => none
            else if s.peerOpen then none
            else some s.breakOff
        | _ => none
    | .start ok =>
        match s.main with
        | .starting =>
            if ok then some { s with main := .loggedIn } else some (s.finish false)
        | _ => none
    | .reply line =>
        if s.peerOpen then some { s with toClient := s.toClient ++ [line] } else none
    | .close => some { s with peerOpen := false }
    | .goAway => some { s with listening := false, peerOpen := false }
    | .comeBack => some { s with listening := true }

/-- When the login dialog is shown. -/
def Attempts.start (listening : Bool) : Attempts where
  listening := listening
  sock := none
  sockets := 0
  peerOpen := false
  toServer := []
  toClient := []
  connected := false
  closing := false
  main := .idle
  connects := false
  brokenOn := []
  ended := []

/-! ## Steps -/

/-- What an action can do. -/
inductive AttemptStep (s : Attempts) : AttemptAction → Attempts → Prop where
  | attempt {a connects} (hmain : s.main = .idle) :
      AttemptStep s (.attempt a connects) (s.ensureConnected a connects)
  | send {a} (hmain : s.main = .sending a) : AttemptStep s (.send true) { s with
      toServer := s.toServer ++ [a.command.text], main := .checking a [] }
  | sendFails {a} (hmain : s.main = .sending a) (hpeer : s.peerOpen = false) :
      AttemptStep s (.send false) s.breakOff
  | timeout {a lines} (hmain : s.main = .checking a lines) :
      AttemptStep s (.check true) (s.finish false)
  | check {a lines} (hmain : s.main = .checking a lines) :
      AttemptStep s (.check false) { s with main := .receiving a lines }
  | receive {a lines line rest} (hmain : s.main = .receiving a lines)
      (hline : s.toClient = line :: rest) :
      AttemptStep s (.receive true)
        (Attempts.take { s with toClient := rest } a lines line)
  | receiveFails {a lines} (hmain : s.main = .receiving a lines)
      (hpeer : s.peerOpen = false) :
      AttemptStep s (.receive false) s.breakOff
  | start (hmain : s.main = .starting) :
      AttemptStep s (.start true) { s with main := .loggedIn }
  | startFails (hmain : s.main = .starting) :
      AttemptStep s (.start false) (s.finish false)
  | reply {line} (hpeer : s.peerOpen = true) :
      AttemptStep s (.reply line) { s with toClient := s.toClient ++ [line] }
  | close : AttemptStep s .close { s with peerOpen := false }
  | goAway : AttemptStep s .goAway { s with listening := false, peerOpen := false }
  | comeBack : AttemptStep s .comeBack { s with listening := true }

variable {s s' : Attempts} {a : AttemptAction}

theorem AttemptStep.of_next (h : attempts.next s a = some s') : AttemptStep s a s' := by
  cases a with
  | attempt a connects =>
      obtain ⟨hmain, h⟩ := Option.ite_none_right_eq_some.mp h
      obtain rfl := Option.some.inj h
      exact .attempt hmain
  | send ok =>
      simp only [attempts] at h
      split at h
      · rename_i hmain
        split at h
        · rename_i hok
          obtain rfl := hok
          obtain rfl := Option.some.inj h
          exact .send hmain
        · rename_i hok
          obtain rfl := Bool.eq_false_of_not_eq_true hok
          obtain ⟨hpeer, h⟩ := Option.ite_none_left_eq_some.mp h
          obtain rfl := Option.some.inj h
          exact .sendFails hmain (Bool.eq_false_of_not_eq_true hpeer)
      · cases h
  | check timeUp =>
      simp only [attempts] at h
      split at h
      · rename_i hmain
        cases timeUp with
        | true =>
            obtain rfl := Option.some.inj h
            exact .timeout hmain
        | false =>
            obtain rfl := Option.some.inj h
            exact .check hmain
      · cases h
  | receive ok =>
      simp only [attempts] at h
      split at h
      · rename_i hmain
        split at h
        · rename_i hok
          obtain rfl := hok
          split at h
          · rename_i hline
            obtain rfl := Option.some.inj h
            exact .receive hmain hline
          · cases h
        · rename_i hok
          obtain rfl := Bool.eq_false_of_not_eq_true hok
          obtain ⟨hpeer, h⟩ := Option.ite_none_left_eq_some.mp h
          obtain rfl := Option.some.inj h
          exact .receiveFails hmain (Bool.eq_false_of_not_eq_true hpeer)
      · cases h
  | start ok =>
      simp only [attempts] at h
      split at h
      · rename_i hmain
        cases ok with
        | true =>
            obtain rfl := Option.some.inj h
            exact .start hmain
        | false =>
            obtain rfl := Option.some.inj h
            exact .startFails hmain
      · cases h
  | reply line =>
      obtain ⟨hpeer, h⟩ := Option.ite_none_right_eq_some.mp h
      obtain rfl := Option.some.inj h
      exact .reply hpeer
  | close =>
      obtain rfl := Option.some.inj h
      exact .close
  | goAway =>
      obtain rfl := Option.some.inj h
      exact .goAway
  | comeBack =>
      obtain rfl := Option.some.inj h
      exact .comeBack

/-! ## Runs -/

/-- `m_connected` is not set for a socket on which a send or a receive has failed, and an
attempt after a failed one, also the attempt in progress, has gone through `Connect`. -/
structure Attempts.FreshAfterFailure (s : Attempts) : Prop where
  socket : ∀ sock ∈ s.brokenOn, ¬ (s.connected = true ∧ s.sock = some sock)
  next : s.ended.IsChain fun before after => before.broken = true → after.connects = true
  inProgress : s.main ≠ .idle → ∀ before ∈ s.ended.getLast?,
    before.broken = true → s.connects = true

/-- Neither a send nor a receive fails. -/
def ExchangeGoesOn (a : AttemptAction) : Prop := a ≠ .send false ∧ a ≠ .receive false

/-- An attempt goes over the socket of `m_connected`, and that stays when a send or a
receive has failed on it. -/
structure AttemptsOk (s : Attempts) : Prop where
  busy : s.main ≠ .idle → s.connected = true
  sock : s.connected = true → ∃ sock, s.sock = some sock
  broken : s.brokenOn ≠ [] → s.connected = true ∧ ∃ sock ∈ s.brokenOn, s.sock = some sock
  ended : ∀ attempt ∈ s.ended, attempt.broken = true → s.brokenOn ≠ []

theorem attemptsOk_start (listening : Bool) : AttemptsOk (.start listening) where
  busy h := absurd rfl h
  sock := nofun
  broken h := absurd rfl h
  ended := List.forall_mem_nil _

theorem AttemptsOk.finish (h : AttemptsOk s) : AttemptsOk (s.finish false) where
  busy hmain := absurd rfl hmain
  sock := h.sock
  broken := h.broken
  ended := List.forall_mem_append.mpr ⟨h.ended, List.forall_mem_singleton.mpr nofun⟩

theorem brokenOn_breakOff_ne_nil (h : AttemptsOk s) (hmain : s.main ≠ .idle) :
    s.breakOff.brokenOn ≠ [] := by
  obtain ⟨sock, hsock⟩ := h.sock (h.busy hmain)
  simp [Attempts.breakOff, hsock]

theorem AttemptsOk.breakOff (h : AttemptsOk s) (hmain : s.main ≠ .idle) :
    AttemptsOk s.breakOff where
  busy hidle := absurd rfl hidle
  sock := h.sock
  broken _ := by
    obtain ⟨sock, hsock⟩ := h.sock (h.busy hmain)
    refine ⟨h.busy hmain, sock, ?_, hsock⟩
    simp [Attempts.breakOff, hsock]
  ended _ _ _ := brokenOn_breakOff_ne_nil h hmain

theorem AttemptsOk.ensureConnected (h : AttemptsOk s) (attempt : Attempt)
    (connects : Bool) : AttemptsOk (s.ensureConnected attempt connects) := by
  have hnone (hconnected : ¬ s.connected = true) : s.brokenOn = [] := by
    by_contra hne
    exact hconnected (h.broken hne).1
  unfold Attempts.ensureConnected
  split
  · next hconnected => exact ⟨fun _ => hconnected, h.sock, h.broken, h.ended⟩
  · next hconnected =>
      split
      · exact ⟨fun _ => rfl, fun _ => ⟨_, rfl⟩, fun hne => absurd (hnone hconnected) hne,
          h.ended⟩
      · refine ⟨h.busy, fun hconn => absurd hconn hconnected,
          fun hne => absurd (hnone hconnected) hne, ?_⟩
        exact List.forall_mem_append.mpr ⟨h.ended, List.forall_mem_singleton.mpr nofun⟩

theorem AttemptsOk.moves (h : AttemptsOk s) (hmain : s.main ≠ .idle)
    (main : AttemptState) : AttemptsOk { s with main := main } where
  busy _ := h.busy hmain
  sock := h.sock
  broken := h.broken
  ended := h.ended

theorem AttemptsOk.take (h : AttemptsOk s) (hmain : s.main ≠ .idle) (attempt : Attempt)
    (lines : List Bytes) (line : Bytes) : AttemptsOk (s.take attempt lines line) := by
  unfold Attempts.take
  split
  · cases attempt with
    | login =>
        dsimp only
        split
        · exact h.moves hmain _
        · exact h.finish
    | register => exact h.finish
  · exact h.moves hmain _

theorem AttemptsOk.next (h : AttemptsOk s) (hnext : attempts.next s a = some s') :
    AttemptsOk s' := by
  cases AttemptStep.of_next hnext with
  | attempt hmain => exact h.ensureConnected _ _
  | @send attempt hmain =>
      have hmoves := h.moves (hmain ▸ nofun) (.checking attempt [])
      exact ⟨hmoves.busy, hmoves.sock, hmoves.broken, hmoves.ended⟩
  | sendFails hmain => exact h.breakOff (hmain ▸ nofun)
  | timeout => exact h.finish
  | check hmain => exact h.moves (hmain ▸ nofun) _
  | @receive _ _ _ rest hmain =>
      have htaken : AttemptsOk { s with toClient := rest } :=
        ⟨h.busy, h.sock, h.broken, h.ended⟩
      exact htaken.take (hmain ▸ nofun) _ _ _
  | receiveFails hmain => exact h.breakOff (hmain ▸ nofun)
  | start hmain => exact h.moves (hmain ▸ nofun) _
  | startFails => exact h.finish
  | reply | close | goAway | comeBack => exact ⟨h.busy, h.sock, h.broken, h.ended⟩

/-- A fresh connection has followed each failure only where there was none. -/
theorem AttemptsOk.fresh_iff (h : AttemptsOk s) :
    s.FreshAfterFailure ↔ s.brokenOn = [] := by
  constructor
  · intro hfresh
    by_contra hne
    obtain ⟨hconnected, sock, hmem, hsock⟩ := h.broken hne
    exact hfresh.socket sock hmem ⟨hconnected, hsock⟩
  · intro hnone
    have hended : ∀ attempt ∈ s.ended, ¬ attempt.broken = true :=
      fun attempt hmem hbroken =>
      h.ended attempt hmem hbroken hnone
    refine ⟨by simp [hnone], ?_, fun _ before hlast hbroken => ?_⟩
    · refine List.Pairwise.isChain ?_
      exact List.pairwise_of_forall_mem_list fun before hmem _ _ hbroken =>
        absurd hbroken (hended before hmem)
    · exact absurd hbroken (hended before (List.mem_of_getLast? hlast))

theorem brokenOn_take (attempt : Attempt) (lines : List Bytes) (line : Bytes) :
    (s.take attempt lines line).brokenOn = s.brokenOn := by
  unfold Attempts.take
  split
  · cases attempt with
    | login =>
        dsimp only
        split <;> rfl
    | register => rfl
  · rfl

theorem brokenOn_ensureConnected (attempt : Attempt) (connects : Bool) :
    (s.ensureConnected attempt connects).brokenOn = s.brokenOn := by
  unfold Attempts.ensureConnected
  split
  · rfl
  · split <;> rfl

/-- A step breaks an exchange exactly if its send or its receive fails. -/
theorem AttemptsOk.brokenOn_next (h : AttemptsOk s)
    (hnext : attempts.next s a = some s') :
    s'.brokenOn = [] ↔ s.brokenOn = [] ∧ ExchangeGoesOn a := by
  cases AttemptStep.of_next hnext with
  | attempt =>
      rw [brokenOn_ensureConnected]
      exact (and_iff_left ⟨nofun, nofun⟩).symm
  | receive =>
      rw [brokenOn_take]
      exact (and_iff_left ⟨nofun, nofun⟩).symm
  | send | timeout | check | start | startFails | reply | close | goAway | comeBack =>
      exact (and_iff_left ⟨nofun, nofun⟩).symm
  | sendFails hmain =>
      exact iff_of_false (brokenOn_breakOff_ne_nil h (hmain ▸ nofun))
        fun hok => hok.2.1 rfl
  | receiveFails hmain =>
      exact iff_of_false (brokenOn_breakOff_ne_nil h (hmain ▸ nofun))
        fun hok => hok.2.2 rfl

/-- A fresh connection follows each failure in exactly the runs without one. -/
theorem attempts_run_iff (listening : Bool) (t : List AttemptAction) (s : Attempts) :
    attempts.Run (fun _ _ a => ExchangeGoesOn a) (.start listening) t s ↔
      attempts.AnyRun (.start listening) t s ∧ s.FreshAfterFailure := by
  have hkept (s a s') (hok : AttemptsOk s) (hnext : attempts.next s a = some s') :
      s'.FreshAfterFailure ↔ s.FreshAfterFailure ∧ ExchangeGoesOn a := by
    rw [hok.fresh_iff, (hok.next hnext).fresh_iff]
    exact hok.brokenOn_next hnext
  exact Machine.run_iff_of_step (fun _ _ _ => AttemptsOk.next) hkept
    (attemptsOk_start listening) ((attemptsOk_start listening).fresh_iff.mpr rfl)

/-- The server closes the connection under an exchange, and the next attempt is under
way. -/
def brokenTrace : List AttemptAction :=
  [.attempt (.login annName annName) true, .send true, .close,
    .check false, .receive false, .attempt (.login annName annName) true]

theorem not_attempts_freshAfterFailure :
    ¬ ∀ (listening : Bool) (t : List AttemptAction) (s : Attempts),
      attempts.AnyRun (.start listening) t s → s.FreshAfterFailure := by
  intro h
  have hfollow : (attempts.follow (.start true) brokenTrace).map
      (fun s => (s.brokenOn, s.connected, s.sock)) = some ([0], true, some 0) := by decide
  obtain ⟨s, hs, heq⟩ := Option.map_eq_some_iff.mp hfollow
  simp only [Prod.mk.injEq] at heq
  obtain ⟨hbroken, hconnected, hsock⟩ := heq
  have hfresh := h true brokenTrace s (Machine.run_of_follow hs)
  exact hfresh.socket 0 (by simp [hbroken]) ⟨hconnected, hsock⟩

/-- The connection has been closed and everything on it has been read, but `m_connected`
is still set. -/
structure Attempts.Locked (s : Attempts) : Prop where
  connected : s.connected = true
  peerOpen : s.peerOpen = false
  toClient : s.toClient = []
  main : s.main ≠ .starting ∧ s.main ≠ .loggedIn

theorem Attempts.Locked.next (h : s.Locked) (hnext : attempts.next s a = some s') :
    s'.Locked := by
  cases AttemptStep.of_next hnext with
  | attempt hmain =>
      unfold ensureConnected
      rw [if_pos h.connected]
      exact ⟨h.connected, h.peerOpen, h.toClient, nofun, nofun⟩
  | send | sendFails | timeout | check | receiveFails | startFails =>
      exact ⟨h.connected, h.peerOpen, h.toClient, nofun, nofun⟩
  | receive hmain hline => exact absurd (h.toClient.symm.trans hline) nofun
  | start hmain => exact absurd hmain h.main.1
  | reply hpeer => exact absurd (h.peerOpen.symm.trans hpeer) nofun
  | close | goAway => exact ⟨h.connected, rfl, h.toClient, h.main⟩
  | comeBack => exact ⟨h.connected, h.peerOpen, h.toClient, h.main⟩

/-- No login succeeds any more, also when the server has come back. -/
theorem locked_out (h : s.Locked) {t : List AttemptAction}
    (hrun : attempts.AnyRun s t s') : s'.main ≠ .loggedIn :=
  (hrun.invariant (fun _ _ _ => Attempts.Locked.next) h).main.2

end CloudAlert
