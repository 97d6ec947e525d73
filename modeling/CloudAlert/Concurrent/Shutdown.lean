import CloudAlert.Concurrent.WorkerPool

/-!
# Stopping the TCP server

`Stop` clears `m_running`, closes the listening socket, lets the workers run out, closes
what is left in the queue, and closes the semaphore, while `Run` goes on until its next
test of `m_running` or its next `accept`. `shutdown` is the machine of both with the
workers, from `Init` on. The drain has `m_queueCs`, but a push may come after it:
`PushesInTime` are the steps without such a push, and in exactly these runs every socket
has been closed in the end.
-/

namespace CloudAlert

/-! ## The machine -/

/-- Where `TcpServer::Run` is. -/
inductive RunState where
  | starting
  | testing                   -- at the test of `m_running`
  | accepting
  | accepted (sock : Socket)  -- at `EnqueueClient`
  | pushed                    -- in `EnqueueClient`, at `ReleaseSemaphore`
  | refused (sock : Socket)   -- `EnqueueClient` returned false, at `closesocket`
  | exited
deriving DecidableEq

/-- Where `TcpServer::Stop` is. -/
inductive StopState where
  | idle
  | closing         -- at `closesocket` of the listening socket
  | releasing       -- in `StopWorkerPool`, at `ReleaseSemaphore`
  | joining         -- waits for the workers
  | draining
  | closingHandle   -- at `CloseHandle` of the semaphore
  | returned
deriving DecidableEq

/-- The queue and the semaphore, where each thread is, and the sockets that have gone
through so far: returned by `accept`, closed by their session, by the accept loop, by the
drain. -/
structure Shutdown (ι : Type*) where
  clientQueue : List Socket
  permits : ℕ
  semaphore : Bool            -- `m_queueSemaphore` is not NULL
  running : Bool
  listening : Bool            -- `m_listenSock` is open
  run : RunState
  stop : StopState
  worker : ι → PoolWorker
  accepted : List Socket
  closed : List Socket
  rejected : List Socket
  drained : List Socket

/-- After `Init`. -/
def Shutdown.started {ι : Type*} : Shutdown ι :=
  ⟨[], 0, true, false, true, .starting, .idle, fun _ => .waiting, [], [], [], []⟩

/-- What can happen: `accept` returns a socket or fails, the next step of `Run`, of
`Stop`, of a worker. -/
inductive ShutdownAction (ι : Type*) where
  | accept (sock : Socket)
  | acceptFails
  | run
  | stop
  | worker (i : ι)

/-- The socket the accept loop has in hand. -/
def RunState.holding : RunState → List Socket
  | .accepted sock | .refused sock => [sock]
  | _ => []

section

variable {ι : Type*} [Fintype ι] [DecidableEq ι]

/-- The handle is that of an open connection. -/
def Shutdown.IsOpen (s : Shutdown ι) (sock : Socket) : Prop :=
  sock ∈ s.clientQueue ∨ sock ∈ s.run.holding ∨ ∃ i, s.worker i = .serving sock

instance (s : Shutdown ι) (sock : Socket) : Decidable (s.IsOpen sock) :=
  inferInstanceAs (Decidable (_ ∨ _ ∨ _))

/-- `ReleaseSemaphore` by `n`, of a semaphore with the maximum `0x7fffffff`. -/
def releaseSemaphoreBy (count n : ℕ) :
    ℕ := if count + n ≤ 0x7fffffff then count + n else count

/-- The worker `i` goes on at `place`. -/
def Shutdown.moves (s : Shutdown ι) (i : ι) (place : PoolWorker) : Shutdown ι :=
  { s with worker := Function.update s.worker i place }

/-- The next step of `Run`, but for `accept`. -/
def Shutdown.stepRun (s : Shutdown ι) : Option (Shutdown ι) :=
  match s.run with
  | .starting => some { s with running := true, run := .testing }
  | .testing => some { s with run := if s.running then .accepting else .exited }
  | .accepted sock =>
      if s.clientQueue.length < pendingQueueLimit then
        some { s with clientQueue := s.clientQueue ++ [sock], run := .pushed }
      else some { s with run := .refused sock }
  | .pushed => some { s with
      permits := if s.semaphore then releaseSemaphore s.permits else s.permits,
      run := .testing }
  | .refused sock => some { s with run := .testing, rejected := s.rejected ++ [sock] }
  | .accepting | .exited => none

/-- The next step of `Stop`. Its waits for the workers return when all have exited. -/
def Shutdown.stepStop (s : Shutdown ι) : Option (Shutdown ι) :=
  match s.stop with
  | .idle => some { s with running := false, stop := .closing }
  | .closing => some { s with listening := false, stop := .releasing }
  | .releasing => some { s with
      permits := releaseSemaphoreBy s.permits (Fintype.card ι), stop := .joining }
  | .joining =>
      if ∀ i, s.worker i = .exited then some { s with stop := .draining } else none
  | .draining => some { s with
      clientQueue := [], drained := s.drained ++ s.clientQueue, stop := .closingHandle }
  | .closingHandle => some { s with semaphore := false, stop := .returned }
  | .returned => none

/-- The next step of `WorkerThreadProc`; `none` while its wait does not return. -/
def Shutdown.stepWorker (s : Shutdown ι) (i : ι) : Option (Shutdown ι) :=
  match s.worker i with
  | .waiting =>
      if s.semaphore then
        if 0 < s.permits then some { s.moves i .permitted with permits := s.permits - 1 }
        else none
      else some (s.moves i .exited)
  | .permitted =>
      match s.clientQueue with
      | sock :: rest => some { s.moves i (.serving sock) with clientQueue := rest }
      | [] => some (s.moves i .foundEmpty)
  | .foundEmpty => some (s.moves i (if s.running then .waiting else .exited))
  | .serving sock => some { s.moves i .waiting with closed := s.closed ++ [sock] }
  | .exited => none

/-- The TCP server with `Stop` called once. `accept` returns a handle that is not in use,
and fails once the listening socket is closed. -/
def shutdown : Machine (Shutdown ι) (ShutdownAction ι) where
  next s
    | .accept sock =>
        if s.run = .accepting ∧ s.listening ∧ ¬ s.IsOpen sock then
          some { s with run := .accepted sock, accepted := s.accepted ++ [sock] }
        else none
    | .acceptFails => if s.run = .accepting then some { s with run := .exited } else none
    | .run => s.stepRun
    | .stop => s.stepStop
    | .worker i => s.stepWorker i

/-- What an action can do. -/
inductive ShutdownStep (s : Shutdown ι) : ShutdownAction ι → Shutdown ι → Prop where
  | accept {sock} (hat : s.run = .accepting) : ShutdownStep s (.accept sock) { s with
      run := .accepted sock, accepted := s.accepted ++ [sock] }
  | acceptFails (hat : s.run = .accepting) :
      ShutdownStep s .acceptFails { s with run := .exited }
  | start (hat : s.run = .starting) :
      ShutdownStep s .run { s with running := true, run := .testing }
  | test (hat : s.run = .testing) :
      ShutdownStep s .run { s with run := if s.running then .accepting else .exited }
  | push {sock} (hat : s.run = .accepted sock)
      (hroom : s.clientQueue.length < pendingQueueLimit) : ShutdownStep s .run { s with
        clientQueue := s.clientQueue ++ [sock], run := .pushed }
  | refuse {sock} (hat : s.run = .accepted sock)
      (hfull : pendingQueueLimit ≤ s.clientQueue.length) :
      ShutdownStep s .run { s with run := .refused sock }
  | release (hat : s.run = .pushed) : ShutdownStep s .run { s with
      permits := if s.semaphore then releaseSemaphore s.permits else s.permits,
      run := .testing }
  | reject {sock} (hat : s.run = .refused sock) : ShutdownStep s .run { s with
      run := .testing, rejected := s.rejected ++ [sock] }
  | stop (hat : s.stop = .idle) :
      ShutdownStep s .stop { s with running := false, stop := .closing }
  | closeListen (hat : s.stop = .closing) :
      ShutdownStep s .stop { s with listening := false, stop := .releasing }
  | releaseAll (hat : s.stop = .releasing) : ShutdownStep s .stop { s with
      permits := releaseSemaphoreBy s.permits (Fintype.card ι), stop := .joining }
  | join (hat : s.stop = .joining) (hexited : ∀ i, s.worker i = .exited) :
      ShutdownStep s .stop { s with stop := .draining }
  | drain (hat : s.stop = .draining) : ShutdownStep s .stop { s with
      clientQueue := [], drained := s.drained ++ s.clientQueue, stop := .closingHandle }
  | closeHandle (hat : s.stop = .closingHandle) :
      ShutdownStep s .stop { s with semaphore := false, stop := .returned }
  | wake {i} (hat : s.worker i = .waiting) :
      ShutdownStep s (.worker i) { s.moves i .permitted with
      permits := s.permits - 1 }
  | waitFails {i} (hat : s.worker i = .waiting) :
      ShutdownStep s (.worker i) (s.moves i .exited)
  | pop {i sock rest} (hat : s.worker i = .permitted)
      (hqueue : s.clientQueue = sock :: rest) :
      ShutdownStep s (.worker i) { s.moves i (.serving sock) with clientQueue := rest }
  | findEmpty {i} (hat : s.worker i = .permitted) :
      ShutdownStep s (.worker i) (s.moves i .foundEmpty)
  | goOn {i} (hat : s.worker i = .foundEmpty) :
      ShutdownStep s (.worker i) (s.moves i (if s.running then .waiting else .exited))
  | close {i sock} (hat : s.worker i = .serving sock) :
      ShutdownStep s (.worker i) { s.moves i .waiting with closed := s.closed ++ [sock] }

theorem ShutdownStep.of_next {s s' : Shutdown ι} {a : ShutdownAction ι}
    (h : shutdown.next s a = some s') : ShutdownStep s a s' := by
  cases a with
  | accept sock =>
      obtain ⟨⟨hat, -⟩, h⟩ := Option.ite_none_right_eq_some.mp h
      obtain rfl := Option.some.inj h
      exact .accept hat
  | acceptFails =>
      obtain ⟨hat, h⟩ := Option.ite_none_right_eq_some.mp h
      obtain rfl := Option.some.inj h
      exact .acceptFails hat
  | run =>
      simp only [shutdown, Shutdown.stepRun] at h
      split at h
      · rename_i hat
        obtain rfl := Option.some.inj h
        exact .start hat
      · rename_i hat
        obtain rfl := Option.some.inj h
        exact .test hat
      · rename_i hat
        split at h
        · rename_i hroom
          obtain rfl := Option.some.inj h
          exact .push hat hroom
        · rename_i hfull
          obtain rfl := Option.some.inj h
          exact .refuse hat (not_lt.mp hfull)
      · rename_i hat
        obtain rfl := Option.some.inj h
        exact .release hat
      · rename_i hat
        obtain rfl := Option.some.inj h
        exact .reject hat
      · cases h
      · cases h
  | stop =>
      simp only [shutdown, Shutdown.stepStop] at h
      split at h
      · rename_i hat
        obtain rfl := Option.some.inj h
        exact .stop hat
      · rename_i hat
        obtain rfl := Option.some.inj h
        exact .closeListen hat
      · rename_i hat
        obtain rfl := Option.some.inj h
        exact .releaseAll hat
      · rename_i hat
        obtain ⟨hexited, h⟩ := Option.ite_none_right_eq_some.mp h
        obtain rfl := Option.some.inj h
        exact .join hat hexited
      · rename_i hat
        obtain rfl := Option.some.inj h
        exact .drain hat
      · rename_i hat
        obtain rfl := Option.some.inj h
        exact .closeHandle hat
      · cases h
  | worker i =>
      simp only [shutdown, Shutdown.stepWorker] at h
      split at h
      · rename_i hat
        split at h
        · obtain ⟨-, h⟩ := Option.ite_none_right_eq_some.mp h
          obtain rfl := Option.some.inj h
          exact .wake hat
        · obtain rfl := Option.some.inj h
          exact .waitFails hat
      · rename_i hat
        split at h
        · rename_i hqueue
          obtain rfl := Option.some.inj h
          exact .pop hat hqueue
        · obtain rfl := Option.some.inj h
          exact .findEmpty hat
      · rename_i hat
        obtain rfl := Option.some.inj h
        exact .goOn hat
      · rename_i hat
        obtain rfl := Option.some.inj h
        exact .close hat
      · cases h

/-! ## The invariant -/

/-- How many workers have a session on the socket. -/
def Shutdown.holders (s : Shutdown ι) (sock : Socket) : ℕ := ∑ i, (s.worker i).serves sock

/-- `Run` is at `EnqueueClient`. -/
def RunState.IsAccepted : RunState → Prop
  | .accepted _ => True
  | _ => False

/-- The waits for the workers have returned. -/
def StopState.HasJoined : StopState → Prop
  | .draining | .closingHandle | .returned => True
  | _ => False

/-- The queue has been drained. -/
def StopState.HasDrained : StopState → Prop
  | .closingHandle | .returned => True
  | _ => False

/-- Every socket `accept` has returned is somewhere, or has been closed; and no worker is
left when `Stop` has waited for them. -/
structure ShutdownOk (s : Shutdown ι) : Prop where
  placed : ∀ sock, s.accepted.count sock = s.clientQueue.count sock +
    s.run.holding.count sock + s.holders sock + s.closed.count sock +
    s.rejected.count sock + s.drained.count sock
  joined : s.stop.HasJoined → ∀ i, s.worker i = .exited

omit [DecidableEq ι] in
theorem shutdownOk_started : ShutdownOk (Shutdown.started : Shutdown ι) where
  placed sock := by simp [Shutdown.started, Shutdown.holders, PoolWorker.serves,
    RunState.holding]
  joined := False.elim

theorem Shutdown.holders_moves (s : Shutdown ι) (i : ι) (place : PoolWorker)
    (sock : Socket) :
    (s.moves i place).holders sock + (s.worker i).serves sock =
      s.holders sock + place.serves sock :=
  sum_comp_update (PoolWorker.serves sock) s.worker i place

omit [DecidableEq ι] in
/-- A worker that has a step has not exited. -/
theorem ShutdownOk.not_joined {s : Shutdown ι} (h : ShutdownOk s) {i : ι}
    {place : PoolWorker} (hat : s.worker i = place) (hplace : place ≠ .exited) :
    ¬ s.stop.HasJoined :=
  fun hjoined => hplace (hat.symm.trans (h.joined hjoined i))

theorem ShutdownOk.moves {s : Shutdown ι} (h : ShutdownOk s) {i : ι}
    {place place' : PoolWorker} (hat : s.worker i = place) (hplace : place ≠ .exited)
    (hold : ∀ sock, place.serves sock = 0) (hnew : ∀ sock, place'.serves sock = 0) :
    ShutdownOk (s.moves i place') := by
  refine ⟨fun sock => ?_, fun hjoined => absurd hjoined (h.not_joined hat hplace)⟩
  have hholders := s.holders_moves i place' sock
  rw [hat, hold, hnew, Nat.add_zero, Nat.add_zero] at hholders
  change s.accepted.count sock = s.clientQueue.count sock + s.run.holding.count sock +
    (s.moves i place').holders sock + _ + _ + _
  rw [hholders]
  exact h.placed sock

theorem ShutdownOk.next {s s' : Shutdown ι} {a : ShutdownAction ι} (h : ShutdownOk s)
    (hnext : shutdown.next s a = some s') : ShutdownOk s' := by
  have hplaced := h.placed
  cases ShutdownStep.of_next hnext with
  | @accept sock hat =>
      refine ⟨fun x => ?_, h.joined⟩
      have hx := hplaced x
      rw [hat] at hx
      change (s.accepted ++ [sock]).count x = s.clientQueue.count x + [sock].count x +
        s.holders x + _ + _ + _
      rw [List.count_append, hx]
      simp only [RunState.holding, List.count_nil]
      omega
  | acceptFails hat | start hat | release hat =>
      rw [hat] at hplaced
      exact ⟨hplaced, h.joined⟩
  | test hat =>
      rw [hat] at hplaced
      refine ⟨fun x => (hplaced x).trans ?_, h.joined⟩
      dsimp only
      split <;> rfl
  | @push sock hat hroom =>
      refine ⟨fun x => ?_, h.joined⟩
      have hx := hplaced x
      rw [hat] at hx
      change s.accepted.count x = (s.clientQueue ++ [sock]).count x + 0 +
        s.holders x + _ + _ + _
      rw [List.count_append, hx]
      simp only [RunState.holding]
      omega
  | refuse hat hfull =>
      rw [hat] at hplaced
      exact ⟨hplaced, h.joined⟩
  | @reject sock hat =>
      refine ⟨fun x => ?_, h.joined⟩
      have hx := hplaced x
      rw [hat] at hx
      change s.accepted.count x = s.clientQueue.count x + 0 + s.holders x + _ +
        (s.rejected ++ [sock]).count x + _
      rw [List.count_append, hx]
      simp only [RunState.holding]
      omega
  | stop hat | closeListen hat | releaseAll hat =>
      exact ⟨hplaced, False.elim⟩
  | join hat hexited => exact ⟨hplaced, fun _ => hexited⟩
  | drain hat =>
      refine ⟨fun x => ?_, fun _ => h.joined (hat ▸ trivial)⟩
      have hx := hplaced x
      change s.accepted.count x = 0 + s.run.holding.count x + s.holders x +
        s.closed.count x + s.rejected.count x + (s.drained ++ s.clientQueue).count x
      rw [List.count_append]
      omega
  | closeHandle hat => exact ⟨hplaced, fun _ => h.joined (hat ▸ trivial)⟩
  | wake hat =>
      have hmoves : ShutdownOk (s.moves _ .permitted) :=
        h.moves hat (by simp) (fun _ => rfl) fun _ => rfl
      exact ⟨hmoves.placed, hmoves.joined⟩
  | waitFails hat => exact h.moves hat (by simp) (fun _ => rfl) fun _ => rfl
  | @pop i sock rest hat hqueue =>
      refine ⟨fun x => ?_, fun hjoined => absurd hjoined (h.not_joined hat (by simp))⟩
      have hx := hplaced x
      have hholders := s.holders_moves i (.serving sock) x
      rw [hat] at hholders
      simp only [PoolWorker.serves] at hholders
      rw [hqueue, List.count_cons] at hx
      simp only [beq_iff_eq] at hx
      change s.accepted.count x = rest.count x + s.run.holding.count x +
        (s.moves i (.serving sock)).holders x + s.closed.count x + s.rejected.count x +
        s.drained.count x
      omega
  | findEmpty hat => exact h.moves hat (by simp) (fun _ => rfl) fun _ => rfl
  | goOn hat =>
      refine h.moves hat (by simp) (fun _ => rfl) fun _ => ?_
      split <;> rfl
  | @close i sock hat =>
      refine ⟨fun x => ?_, fun hjoined => absurd hjoined (h.not_joined hat (by simp))⟩
      have hx := hplaced x
      have hholders := s.holders_moves i .waiting x
      rw [hat] at hholders
      simp only [PoolWorker.serves] at hholders
      change s.accepted.count x = s.clientQueue.count x + s.run.holding.count x +
        (s.moves i .waiting).holders x + (s.closed ++ [sock]).count x +
        s.rejected.count x +
        s.drained.count x
      rw [List.count_append, List.count_singleton]
      simp only [beq_iff_eq]
      omega

/-! ## The drain -/

/-- The step is not a push that comes after the drain. -/
def PushesInTime (s : Shutdown ι) (a : ShutdownAction ι) : Prop :=
  a = .run → s.run.IsAccepted → ¬ s.stop.HasDrained

/-- Nothing is left in the queue once it has been drained. -/
def Shutdown.StaysDrained (s : Shutdown ι) :
    Prop := s.stop.HasDrained → s.clientQueue = []

omit [Fintype ι] [DecidableEq ι] in
theorem StopState.HasDrained.hasJoined {stop : StopState} (h : stop.HasDrained) :
    stop.HasJoined := by
  cases stop <;> first | exact trivial | exact h

/-- A step leaves the queue drained exactly if it is not a late push. -/
theorem staysDrained_next {s s' : Shutdown ι} {a : ShutdownAction ι} (h : ShutdownOk s)
    (hnext : shutdown.next s a = some s') :
    s'.StaysDrained ↔ s.StaysDrained ∧ PushesInTime s a := by
  cases ShutdownStep.of_next hnext with
  | accept | acceptFails | wake | waitFails | findEmpty | goOn | close =>
      exact ⟨fun hdrained => ⟨hdrained, nofun⟩, fun hdrained => hdrained.1⟩
  | start hat | test hat | release hat | reject hat =>
      refine ⟨fun hdrained => ⟨hdrained, fun _ haccepted => ?_⟩,
        fun hdrained => hdrained.1⟩
      rw [hat] at haccepted
      exact haccepted.elim
  | push hat hroom =>
      constructor
      · intro hdrained
        have hnot : ¬ s.stop.HasDrained := fun hstop =>
          absurd (hdrained hstop)
            (List.append_ne_nil_of_right_ne_nil _ (List.cons_ne_nil _ _))
        exact ⟨fun hstop => absurd hstop hnot, fun _ _ => hnot⟩
      · rintro ⟨-, hintime⟩ hstop
        exact absurd hstop (hintime rfl (hat ▸ trivial))
  | refuse hat hfull =>
      refine ⟨fun hdrained => ⟨hdrained, fun _ _ hstop => ?_⟩, fun hdrained => hdrained.1⟩
      -- a drained queue has room
      have hqueue : s.clientQueue = [] := hdrained hstop
      rw [hqueue, List.length_nil] at hfull
      exact absurd hfull (by decide)
  | stop hat | closeListen hat | releaseAll hat | join hat =>
      refine iff_of_true False.elim ⟨fun hstop => ?_, nofun⟩
      rw [hat] at hstop
      exact hstop.elim
  | drain hat =>
      refine iff_of_true (fun _ => rfl) ⟨fun hstop => ?_, nofun⟩
      rw [hat] at hstop
      exact hstop.elim
  | closeHandle hat =>
      have hdrained : s.stop.HasDrained := hat ▸ trivial
      exact ⟨fun hqueue => ⟨fun _ => hqueue trivial, nofun⟩,
        fun hqueue _ => hqueue.1 hdrained⟩
  | pop hat hqueue =>
      -- a worker that pops has not exited, so `Stop` still waits for it
      have hnot : ¬ s.stop.HasDrained := fun hstop =>
        h.not_joined hat nofun hstop.hasJoined
      exact iff_of_true (fun hstop => absurd hstop hnot)
        ⟨fun hstop => absurd hstop hnot, nofun⟩

/-- Every socket that `accept` has returned was closed as often as it was returned, by its
session, by the accept loop or by the drain, and none is left in the queue. -/
structure Shutdown.ClosedOnce (s : Shutdown ι) : Prop where
  queue : s.clientQueue = []
  closed : ∀ sock, s.accepted.count sock =
    s.closed.count sock + s.rejected.count sock + s.drained.count sock

/-- When both `Run` and `Stop` have returned, every socket has been closed once exactly if
no push came after the drain. -/
theorem shutdown_closes_iff {t : List (ShutdownAction ι)} {s : Shutdown ι}
    (hrun : s.run = .exited) (hstop : s.stop = .returned) :
    shutdown.Run (fun _ s a => PushesInTime s a) .started t s ↔
      shutdown.AnyRun .started t s ∧ s.ClosedOnce := by
  have hiff : shutdown.Run (fun _ s a => PushesInTime s a) .started t s ↔
      shutdown.AnyRun .started t s ∧ s.StaysDrained := Machine.run_iff_of_step
    (fun _ _ _ => ShutdownOk.next) (fun _ _ _ => staysDrained_next) shutdownOk_started
    (fun hdrained => hdrained.elim)
  rw [hiff]
  refine and_congr_right fun hany => ?_
  have hok : ShutdownOk s :=
    hany.invariant (fun _ _ _ => ShutdownOk.next) shutdownOk_started
  have hjoined := hok.joined (hstop ▸ trivial)
  constructor
  · intro hdrained
    have hqueue := hdrained (hstop ▸ trivial)
    refine ⟨hqueue, fun sock => ?_⟩
    have hholders : s.holders sock = 0 := Finset.sum_eq_zero fun i _ => by
      rw [hjoined i]
      rfl
    have hplaced := hok.placed sock
    rw [hqueue, hrun, hholders] at hplaced
    simp only [RunState.holding, List.count_nil] at hplaced
    omega
  · intro hclosed _
    exact hclosed.queue

end

/-! ## Two runs -/

/-- Every worker takes a permit of `StopWorkerPool`, finds the queue empty and exits. -/
def allExit : List (ShutdownAction (Fin 32)) :=
  (List.finRange 32).flatMap fun i => [.worker i, .worker i, .worker i]

/-- A client is served before `Stop` is called. -/
def servedTrace : List (ShutdownAction (Fin 32)) :=
  [.run, .run, .accept 7, .run, .run, .worker 3, .worker 3, .worker 3, .stop,
    .stop, .stop] ++
    allExit ++ [.stop, .stop, .stop, .run]

/-- `Stop` is called and returns while `Run` is at `EnqueueClient`. -/
def lateTrace : List (ShutdownAction (Fin 32)) :=
  [.run, .run, .accept 7, .stop, .stop, .stop] ++ allExit ++
    [.stop, .stop, .stop, .run, .run, .run]

theorem shutdown_closes_iff_served :
    ∃ s : Shutdown (Fin 32), s.accepted = [7] ∧
      (shutdown.Run (fun _ s a => PushesInTime s a) .started servedTrace s ↔
        shutdown.AnyRun .started servedTrace s ∧ s.ClosedOnce) := by
  have hfollow : (shutdown.follow .started servedTrace).map
      (fun s => (s.accepted, s.run, s.stop)) = some ([7], .exited, .returned) := by
    decide +kernel
  obtain ⟨s, -, heq⟩ := Option.map_eq_some_iff.mp hfollow
  simp only [Prod.mk.injEq] at heq
  obtain ⟨haccepted, hrun, hstop⟩ := heq
  exact ⟨s, haccepted, shutdown_closes_iff hrun hstop⟩

/-- A socket that is pushed after the drain stays in the queue. -/
theorem not_shutdown_closedOnce :
    ¬ ∀ (t : List (ShutdownAction (Fin 32))) (s : Shutdown (Fin 32)),
      shutdown.AnyRun .started t s → s.run = .exited → s.stop = .returned →
      s.ClosedOnce := by
  intro h
  have hfollow : (shutdown.follow .started lateTrace).map
      (fun s => (s.clientQueue, s.run, s.stop)) = some ([7], .exited, .returned) := by
    decide +kernel
  obtain ⟨s, hs, heq⟩ := Option.map_eq_some_iff.mp hfollow
  simp only [Prod.mk.injEq] at heq
  obtain ⟨hqueue, hrun, hstop⟩ := heq
  have hclosed := h _ s (Machine.run_of_follow hs) hrun hstop
  exact absurd (hqueue.symm.trans hclosed.queue) (List.cons_ne_nil _ _)

end CloudAlert
