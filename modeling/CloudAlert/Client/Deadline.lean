import CloudAlert.Client.MainFrame
import CloudAlert.Program.Machine

/-!
# The deadline of a command

`SendCommand` puts its deadline six seconds after a reading of `GetTickCount`, which
starts again at zero every 2^32 milliseconds, and compares later readings with it.
`replyWait` is the machine of its loop on a clock that does not wrap; a check of the loop
is right about the deadline exactly if it is `OnLap`, and it may find the deadline passed
while the reply stands in the queue.
-/

namespace CloudAlert

/-! ## The loop -/

/-- `GetTickCount`, at a time in milliseconds. -/
def tick (clock : ℕ) : UInt32 := UInt32.ofNat clock

/-- Where the main thread is in `SendCommand`. -/
inductive ReplyState where
  -- at `GetTickCount`
  | checking (lines : List Bytes)
  -- in `ReadResponseLine`
  | reading (timeoutMs : UInt32) (since : ℕ) (lines : List Bytes)
  | returned (ok : Bool) (lines : List Bytes)

/-- The loop of `SendCommand` while the receiver thread runs. -/
structure ReplyWait where
  begun : ℕ                -- when the deadline was computed
  clock : ℕ
  responseQ : List Bytes
  main : ReplyState
  -- what has happened
  arrived : List Bytes     -- queued by the receiver thread since the command was sent
  waits : List (ℕ × UInt32)
  timeout : Option (ℕ × List Bytes)   -- when, and what had arrived

/-- What can happen: time passes, the receiver thread queues a line, the main thread reads
the tick counter, takes a line, or has waited for the time it was given. -/
inductive ReplyAction where
  | elapse (ms : ℕ)
  | arrive (line : Bytes)
  | check
  | take
  | expire

/-- The deadline of `SendCommand`. -/
def ReplyWait.deadline (s : ReplyWait) : UInt32 := tick s.begun + 6000

/-- `SendCommand` returns false. -/
def ReplyWait.giveUp (s : ReplyWait) (lines : List Bytes) : ReplyWait :=
  { s with main := .returned false lines, timeout := some (s.clock, s.arrived) }

/-- The loop of `SendCommand`. -/
def replyWait (expectEnd : Bool) : Machine ReplyWait ReplyAction where
  next s
    | .elapse ms => some { s with clock := s.clock + ms }
    | .arrive line => some { s with
        responseQ := s.responseQ ++ [line], arrived := s.arrived ++ [line] }
    | .check =>
        match s.main with
        | .checking lines =>
            if s.deadline ≤ tick s.clock then some (s.giveUp lines)
            else some { s with
              main := .reading (s.deadline - tick s.clock) s.clock lines,
              waits := s.waits ++ [(s.clock, s.deadline - tick s.clock)] }
        | _ => none
    | .take =>
        match s.main, s.responseQ with
        | .reading _ _ lines, line :: rest =>
            if stops expectEnd line then some { s with
              responseQ := rest, main := .returned true (lines ++ [line]) }
            else some { s with responseQ := rest, main := .checking (lines ++ [line]) }
        | _, _ => none
    | .expire =>
        match s.main, s.responseQ with
        | .reading timeoutMs since lines, [] =>
            if since + timeoutMs.toNat ≤ s.clock then some (s.giveUp lines) else none
        | _, _ => none

/-- When the deadline is computed; some lines may have come already. -/
def ReplyWait.start (begun : ℕ) (responseQ : List Bytes) : ReplyWait where
  begun := begun
  clock := begun
  responseQ := responseQ
  main := .checking []
  arrived := responseQ
  waits := []
  timeout := none

/-! ## Promises and conditions -/

/-- Each wait ends when the six seconds do, or before; and no timeout comes before
that. -/
structure ReplyWait.TimeKept (s : ReplyWait) : Prop where
  waits : ∀ wait ∈ s.waits, wait.1 + wait.2.toNat ≤ s.begun + 6000
  timeout : ∀ out ∈ s.timeout, s.begun + 6000 ≤ out.1

/-- At a timeout no line has arrived that completes the reply. -/
def ReplyWait.ReplyKept (expectEnd : Bool) (s : ReplyWait) : Prop :=
  ∀ out ∈ s.timeout, ∀ line ∈ out.2, stops expectEnd line = false

/-- The tick counter has wrapped as often at `clock` as at the deadline, or more often and
it stands at the deadline again or past it. -/
def OnLap (begun clock : ℕ) : Prop :=
  clock / 2 ^ 32 = (begun + 6000) / 2 ^ 32 ∨
    (begun + 6000) / 2 ^ 32 < clock / 2 ^ 32 ∧ (begun + 6000) % 2 ^ 32 ≤ clock % 2 ^ 32

/-- Each check of the deadline is on its lap. -/
def LapsMet (s : ReplyWait) (a : ReplyAction) : Prop := a = .check → OnLap s.begun s.clock

/-- No check after the deadline finds the end of the reply in the queue. -/
def QueueMet (expectEnd : Bool) (s : ReplyWait) (a : ReplyAction) : Prop :=
  a = .check → s.begun + 6000 ≤ s.clock → ∀ line ∈ s.responseQ,
    stops expectEnd line = false

theorem tick_toNat (clock : ℕ) : (tick clock).toNat = clock % 2 ^ 32 := by
  simp [tick]

theorem ReplyWait.deadline_toNat (s : ReplyWait) :
    s.deadline.toNat = (s.begun + 6000) % 2 ^ 32 := by
  rw [deadline, UInt32.toNat_add, tick_toNat]
  change (s.begun % 2 ^ 32 + 6000) % 2 ^ 32 = _
  omega

theorem ReplyWait.wait_toNat {s : ReplyWait} {clock : ℕ} (h : tick clock < s.deadline) :
    (s.deadline - tick clock).toNat =
      (s.begun + 6000) % 2 ^ 32 - clock % 2 ^ 32 := by
  rw [UInt32.toNat_sub_of_le _ _ (UInt32.le_of_lt h), s.deadline_toNat, tick_toNat]

/-- A check compares with the deadline rightly exactly on its lap. -/
theorem onLap_iff {s : ReplyWait} (h : s.begun ≤ s.clock) :
    OnLap s.begun s.clock ↔ (s.deadline ≤ tick s.clock ↔ s.begun + 6000 ≤ s.clock) := by
  rw [UInt32.le_iff_toNat_le, s.deadline_toNat, tick_toNat]
  unfold OnLap
  constructor
  · intro h
    omega
  · intro h
    omega

/-! ## Steps -/

/-- What an action can do. -/
inductive ReplyStep (expectEnd : Bool) (s : ReplyWait) :
    ReplyAction → ReplyWait → Prop where
  | elapse {ms} : ReplyStep expectEnd s (.elapse ms) { s with clock := s.clock + ms }
  | arrive {line} : ReplyStep expectEnd s (.arrive line) { s with
      responseQ := s.responseQ ++ [line], arrived := s.arrived ++ [line] }
  | late {lines} (hmain : s.main = .checking lines) (hlate : s.deadline ≤ tick s.clock) :
      ReplyStep expectEnd s .check (s.giveUp lines)
  | wait {lines} (hmain : s.main = .checking lines) (hearly : tick s.clock < s.deadline) :
      ReplyStep expectEnd s .check { s with
        main := .reading (s.deadline - tick s.clock) s.clock lines,
        waits := s.waits ++ [(s.clock, s.deadline - tick s.clock)] }
  | last {timeoutMs since lines line rest}
      (hmain : s.main = .reading timeoutMs since lines)
      (hqueue : s.responseQ = line :: rest) (hstops : stops expectEnd line = true) :
      ReplyStep expectEnd s .take { s with
        responseQ := rest, main := .returned true (lines ++ [line]) }
  | more {timeoutMs since lines line rest}
      (hmain : s.main = .reading timeoutMs since lines)
      (hqueue : s.responseQ = line :: rest) (hstops : stops expectEnd line = false) :
      ReplyStep expectEnd s .take { s with
        responseQ := rest, main := .checking (lines ++ [line]) }
  | expire {timeoutMs since lines} (hmain : s.main = .reading timeoutMs since lines)
      (hqueue : s.responseQ = []) (htime : since + timeoutMs.toNat ≤ s.clock) :
      ReplyStep expectEnd s .expire (s.giveUp lines)

variable {expectEnd : Bool} {s s' : ReplyWait} {a : ReplyAction}

theorem ReplyStep.of_next (h : (replyWait expectEnd).next s a = some s') :
    ReplyStep expectEnd s a s' := by
  cases a with
  | elapse ms =>
      obtain rfl := Option.some.inj h
      exact .elapse
  | arrive line =>
      obtain rfl := Option.some.inj h
      exact .arrive
  | check =>
      simp only [replyWait] at h
      split at h
      · rename_i lines hmain
        split at h
        · rename_i hlate
          obtain rfl := Option.some.inj h
          exact .late hmain hlate
        · rename_i hearly
          obtain rfl := Option.some.inj h
          exact .wait hmain (UInt32.not_le.mp hearly)
      · cases h
  | take =>
      simp only [replyWait] at h
      split at h
      · rename_i hmain hqueue
        split at h
        · rename_i hstops
          obtain rfl := Option.some.inj h
          exact .last hmain hqueue hstops
        · rename_i hstops
          obtain rfl := Option.some.inj h
          exact .more hmain hqueue (Bool.eq_false_of_not_eq_true hstops)
      · cases h
  | expire =>
      simp only [replyWait] at h
      split at h
      · rename_i hmain hqueue
        obtain ⟨htime, h⟩ := Option.ite_none_right_eq_some.mp h
        obtain rfl := Option.some.inj h
        exact .expire hmain hqueue htime
      · cases h

theorem replyWait_late {lines : List Bytes} (hmain : s.main = .checking lines)
    (hlate : s.deadline ≤ tick s.clock) :
    (replyWait expectEnd).next s .check = some (s.giveUp lines) := by
  simp only [replyWait, hmain, if_pos hlate]

/-- The lines that have arrived and not been taken are in the queue; those taken do not
complete the reply; and a wait is the time to the deadline, on the tick counter. -/
structure ReplyOk (expectEnd : Bool) (s : ReplyWait) : Prop where
  begun_le : s.begun ≤ s.clock
  checking : ∀ {lines}, s.main = .checking lines → s.timeout = none ∧
    s.arrived = lines ++ s.responseQ ∧ ∀ line ∈ lines, stops expectEnd line = false
  reading : ∀ {timeoutMs since lines}, s.main = .reading timeoutMs since lines →
    s.timeout = none ∧ s.arrived = lines ++ s.responseQ ∧
    (∀ line ∈ lines, stops expectEnd line = false) ∧
    s.begun ≤ since ∧ (since, timeoutMs) ∈ s.waits ∧
    tick since < s.deadline ∧ timeoutMs = s.deadline - tick since

theorem ReplyOk.start (begun : ℕ) (responseQ : List Bytes) :
    ReplyOk expectEnd (.start begun responseQ) where
  begun_le := le_rfl
  checking := by
    rintro lines ⟨⟩
    exact ⟨rfl, rfl, List.forall_mem_nil _⟩
  reading := by
    rintro _ _ _ ⟨⟩

theorem ReplyOk.next (hok : ReplyOk expectEnd s)
    (h : (replyWait expectEnd).next s a = some s') : ReplyOk expectEnd s' := by
  cases ReplyStep.of_next h with
  | elapse =>
      exact ⟨hok.begun_le.trans (Nat.le_add_right _ _), hok.checking, hok.reading⟩
  | @arrive line =>
      refine ⟨hok.begun_le, fun hmain => ?_, fun hmain => ?_⟩
      · obtain ⟨htimeout, harrived, hlines⟩ := hok.checking hmain
        exact ⟨htimeout, by rw [harrived, List.append_assoc], hlines⟩
      · obtain ⟨htimeout, harrived, hrest⟩ := hok.reading hmain
        exact ⟨htimeout, by rw [harrived, List.append_assoc], hrest⟩
  | late => exact ⟨hok.begun_le, nofun, nofun⟩
  | wait hmain hearly =>
      obtain ⟨htimeout, harrived, hlines⟩ := hok.checking hmain
      refine ⟨hok.begun_le, nofun, ?_⟩
      intro timeoutMs since lines' hreading
      obtain ⟨rfl, rfl, rfl⟩ := ReplyState.reading.inj hreading
      exact ⟨htimeout, harrived, hlines, hok.begun_le,
        List.mem_append_right _ (List.mem_singleton_self _), hearly, rfl⟩
  | last => exact ⟨hok.begun_le, nofun, nofun⟩
  | more hmain hqueue hstops =>
      obtain ⟨htimeout, harrived, hlines, -⟩ := hok.reading hmain
      refine ⟨hok.begun_le, ?_, nofun⟩
      rintro _ ⟨⟩
      refine ⟨htimeout, by rw [harrived, hqueue]; simp, ?_⟩
      exact List.forall_mem_append.mpr ⟨hlines, List.forall_mem_singleton.mpr hstops⟩
  | expire => exact ⟨hok.begun_le, nofun, nofun⟩

/-! ## Runs -/

theorem ReplyOk.wait_exact (hok : ReplyOk expectEnd s) {timeoutMs : UInt32} {since : ℕ}
    {lines : List Bytes} (hmain : s.main = .reading timeoutMs since lines)
    (hkept : s.TimeKept) : since + timeoutMs.toNat = s.begun + 6000 := by
  obtain ⟨-, -, -, hsince, hmem, hearly, rfl⟩ := hok.reading hmain
  have hle := hkept.waits _ hmem
  dsimp only at hle
  rw [ReplyWait.wait_toNat hearly] at hle ⊢
  rw [UInt32.lt_iff_toNat_lt, s.deadline_toNat, tick_toNat] at hearly
  omega

/-- A check that is followed by a wait is on its lap exactly if the wait ends in time. -/
theorem onLap_iff_wait_le (hbegun : s.begun ≤ s.clock)
    (hearly : tick s.clock < s.deadline) :
    OnLap s.begun s.clock ↔
      s.clock + (s.deadline - tick s.clock).toNat ≤ s.begun + 6000 := by
  rw [ReplyWait.wait_toNat hearly]
  rw [UInt32.lt_iff_toNat_lt, s.deadline_toNat, tick_toNat] at hearly
  unfold OnLap
  constructor
  · intro h
    omega
  · intro h
    omega

/-- A check that gives up is on its lap exactly if the six seconds are over. -/
theorem onLap_iff_over (hbegun : s.begun ≤ s.clock) (hlate : s.deadline ≤ tick s.clock) :
    OnLap s.begun s.clock ↔ s.begun + 6000 ≤ s.clock :=
  (onLap_iff hbegun).trans ⟨fun h => h.mp hlate, fun h => iff_of_true hlate h⟩

theorem timeKept_giveUp {lines : List Bytes} (htimeout : s.timeout = none) :
    (s.giveUp lines).TimeKept ↔ s.TimeKept ∧ s.begun + 6000 ≤ s.clock := by
  constructor
  · rintro ⟨hwaits, hout⟩
    exact ⟨⟨hwaits, by simp [htimeout]⟩, hout _ rfl⟩
  · rintro ⟨⟨hwaits, -⟩, hover⟩
    refine ⟨hwaits, ?_⟩
    rintro _ ⟨⟩
    exact hover

/-- An action keeps the time exactly if it checks the deadline on its lap. -/
theorem timeKept_next (hok : ReplyOk expectEnd s)
    (h : (replyWait expectEnd).next s a = some s') :
    s'.TimeKept ↔ s.TimeKept ∧ LapsMet s a := by
  cases ReplyStep.of_next h with
  | elapse | arrive | last | more =>
      exact ⟨fun h => ⟨⟨h.waits, h.timeout⟩, nofun⟩, fun h => ⟨h.1.waits, h.1.timeout⟩⟩
  | late hmain hlate =>
      rw [timeKept_giveUp (hok.checking hmain).1, ← onLap_iff_over hok.begun_le hlate]
      simp [LapsMet]
  | wait hmain hearly =>
      have hlap := onLap_iff_wait_le hok.begun_le hearly
      constructor
      · rintro ⟨hwaits, hout⟩
        rw [List.forall_mem_append, List.forall_mem_singleton] at hwaits
        exact ⟨⟨hwaits.1, hout⟩, fun _ => hlap.mpr hwaits.2⟩
      · rintro ⟨⟨hwaits, hout⟩, hlaps⟩
        refine ⟨?_, hout⟩
        rw [List.forall_mem_append, List.forall_mem_singleton]
        exact ⟨hwaits, hlap.mp (hlaps rfl)⟩
  | expire hmain hqueue htime =>
      rw [timeKept_giveUp (hok.reading hmain).1]
      constructor
      · rintro ⟨hkept, -⟩
        exact ⟨hkept, nofun⟩
      · rintro ⟨hkept, -⟩
        exact ⟨hkept, (hok.wait_exact hmain hkept).symm.trans_le htime⟩

theorem replyKept_giveUp {lines : List Bytes} :
    (s.giveUp lines).ReplyKept expectEnd ↔
      ∀ line ∈ s.arrived, stops expectEnd line = false := by
  constructor
  · intro h
    exact h _ rfl
  · rintro h _ ⟨⟩
    exact h

/-- An action on the lap keeps the reply exactly if it finds no end of it in the queue
after the deadline. -/
theorem replyKept_next (hok : ReplyOk expectEnd s)
    (h : (replyWait expectEnd).next s a = some s') :
    s'.TimeKept ∧ s'.ReplyKept expectEnd ↔
      (s.TimeKept ∧ s.ReplyKept expectEnd) ∧ LapsMet s a ∧ QueueMet expectEnd s a := by
  rw [timeKept_next hok h]
  cases ReplyStep.of_next h with
  | elapse | arrive | last | more =>
      exact ⟨fun ⟨⟨hkept, hlaps⟩, hreply⟩ => ⟨⟨hkept, hreply⟩, hlaps, nofun⟩,
        fun ⟨⟨hkept, hreply⟩, hlaps, _⟩ => ⟨⟨hkept, hlaps⟩, hreply⟩⟩
  | late hmain hlate =>
      obtain ⟨htimeout, harrived, hlines⟩ := hok.checking hmain
      have hreply : s.ReplyKept expectEnd := by simp [ReplyWait.ReplyKept, htimeout]
      rw [replyKept_giveUp, harrived, List.forall_mem_append]
      constructor
      · rintro ⟨⟨hkept, hlaps⟩, -, hqueue⟩
        exact ⟨⟨hkept, hreply⟩, hlaps, fun _ _ => hqueue⟩
      · rintro ⟨⟨hkept, -⟩, hlaps, hqueue⟩
        have hover := (onLap_iff_over hok.begun_le hlate).mp (hlaps rfl)
        exact ⟨⟨hkept, hlaps⟩, hlines, hqueue rfl hover⟩
  | wait hmain hearly =>
      have hqueue (hlaps : LapsMet s .check) : QueueMet expectEnd s .check := by
        intro _ hover
        have hle := (onLap_iff_wait_le hok.begun_le hearly).mp (hlaps rfl)
        have hpos : 0 < (s.deadline - tick s.clock).toNat := by
          rw [ReplyWait.wait_toNat hearly]
          rw [UInt32.lt_iff_toNat_lt, s.deadline_toNat, tick_toNat] at hearly
          omega
        omega
      exact ⟨fun ⟨⟨hkept, hlaps⟩, hreply⟩ => ⟨⟨hkept, hreply⟩, hlaps, hqueue hlaps⟩,
        fun ⟨⟨hkept, hreply⟩, hlaps, _⟩ => ⟨⟨hkept, hlaps⟩, hreply⟩⟩
  | expire hmain hqueue htime =>
      obtain ⟨htimeout, harrived, hlines, -⟩ := hok.reading hmain
      have hreply : s.ReplyKept expectEnd := by simp [ReplyWait.ReplyKept, htimeout]
      rw [replyKept_giveUp, harrived, hqueue, List.append_nil]
      exact ⟨fun ⟨⟨hkept, hlaps⟩, _⟩ => ⟨⟨hkept, hreply⟩, hlaps, nofun⟩,
        fun ⟨⟨hkept, _⟩, hlaps, _⟩ => ⟨⟨hkept, hlaps⟩, hlines⟩⟩

/-- The waits and the timeouts of a `SendCommand` are right in exactly the runs that check
the deadline on its lap; and no reply is left behind at a timeout in exactly those of them
in which no check after the deadline finds the end of the reply in the queue. -/
theorem replyWait_run_iff (expectEnd : Bool) (begun : ℕ) (responseQ : List Bytes)
    (t : List ReplyAction) (s : ReplyWait) :
    ((replyWait expectEnd).Run (fun _ s a => LapsMet s a) (.start begun responseQ) t s ↔
      (replyWait expectEnd).AnyRun (.start begun responseQ) t s ∧ s.TimeKept) ∧
    ((replyWait expectEnd).Run (fun _ s a => LapsMet s a ∧ QueueMet expectEnd s a)
        (.start begun responseQ) t s ↔
      (replyWait expectEnd).AnyRun (.start begun responseQ) t s ∧
        s.TimeKept ∧ s.ReplyKept expectEnd) := by
  have hstart : (ReplyWait.start begun responseQ).TimeKept := ⟨nofun, nofun⟩
  have hinv (s a s') : ReplyOk expectEnd s →
      (replyWait expectEnd).next s a = some s' → ReplyOk expectEnd s' := ReplyOk.next
  constructor
  · exact Machine.run_iff_of_step hinv (fun _ _ _ => timeKept_next) (.start _ _) hstart
  · exact Machine.run_iff_of_step hinv (fun _ _ _ => replyKept_next) (.start _ _)
      ⟨hstart, nofun⟩

/-- A second before the tick counter wraps, `SendCommand` gives up at once. -/
theorem not_replyWait_kept :
    ¬ ∀ (expectEnd : Bool) (begun : ℕ) (responseQ : List Bytes) (t : List ReplyAction)
      (s : ReplyWait), (replyWait expectEnd).AnyRun (.start begun responseQ) t s →
      s.TimeKept ∧ s.ReplyKept expectEnd := by
  intro h
  have hlate : (ReplyWait.start 4294966296 []).deadline ≤ tick 4294966296 := by decide
  have hnext : (replyWait false).next (.start 4294966296 []) .check =
      some ((ReplyWait.start 4294966296 []).giveUp []) :=
    replyWait_late rfl hlate
  have hrun : (replyWait false).AnyRun (.start 4294966296 []) [.check] _ :=
    Machine.Run.nil.snoc hnext trivial
  exact absurd ((h _ _ _ _ _ hrun).1.timeout _ rfl) (by decide)

end CloudAlert
