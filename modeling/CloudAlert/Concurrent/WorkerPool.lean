import Mathlib.Algebra.BigOperators.Group.Finset.Piecewise
import Mathlib.Algebra.Order.BigOperators.Group.Finset
import CloudAlert.Program.Machine
import CloudAlert.Server.World

/-!
# The worker pool of the TCP server

The accept loop and the pool workers of `TcpServer` as one machine, from `Start` on
and before `Stop`. An action is a section under `m_queueCs`, a `ReleaseSemaphore`, a
wait that returns, a `closesocket`, or a step of one party between these.

The queue and the semaphore are updated in different steps: a push comes before its
release, a wait before its pop. The invariant counts: the queue holds as many sockets
as there are permits, workers that have taken one, and releases still to come.
-/

namespace CloudAlert

/-- `TCP_PENDING_QUEUE_LIMIT`. -/
def pendingQueueLimit : ℕ := 256

/-! ## The machine -/

/-- Where a `WorkerThreadProc` is. -/
inductive PoolWorker where
  | waiting                -- at the wait for `m_queueSemaphore`
  | permitted              -- has taken a permit, at `DequeueClient`
  | foundEmpty             -- `DequeueClient` returned false, at the test of `m_running`
  | serving (sock : Socket)
  | exited
deriving DecidableEq

/-- Where `TcpServer::Run` is. -/
inductive Acceptor where
  | starting
  | accepting
  | accepted (sock : Socket)  -- at `EnqueueClient`
  | pushed                    -- in `EnqueueClient`, at `ReleaseSemaphore`
  | refused (sock : Socket)   -- `EnqueueClient` returned false, at `closesocket`
  | exited
deriving DecidableEq

/-- The queue and the semaphore, where each thread is, and the sockets that have gone
through so far, oldest first: pushed, popped, closed by their session, refused, closed
by the accept loop. -/
structure TcpServer (ι : Type*) where
  clientQueue : List Socket
  permits : ℕ                 -- the count of `m_queueSemaphore`
  running : Bool
  acceptor : Acceptor
  worker : ι → PoolWorker
  entered : List Socket
  left : List Socket
  closed : List Socket
  refused : List Socket
  rejected : List Socket

/-- After `Start`. -/
def TcpServer.started {ι : Type*} : TcpServer ι :=
  ⟨[], 0, false, .starting, fun _ => .waiting, [], [], [], [], []⟩

/-- What can happen: `Run` is called, `accept` returns a socket or fails, the next step
of `Run`, the next step of a worker. -/
inductive TcpAction (ι : Type*) where
  | run
  | accept (sock : Socket)
  | acceptFails
  | acceptor
  | worker (i : ι)

/-- The socket the accept loop has in hand. -/
def Acceptor.holding : Acceptor → List Socket
  | .accepted sock | .refused sock => [sock]
  | _ => []

section

variable {ι : Type*} [Fintype ι] [DecidableEq ι]

/-- The handle is that of an open connection. -/
def TcpServer.IsOpen (s : TcpServer ι) (sock : Socket) : Prop :=
  sock ∈ s.clientQueue ∨ sock ∈ s.acceptor.holding ∨ ∃ i, s.worker i = .serving sock

instance (s : TcpServer ι) (sock : Socket) : Decidable (s.IsOpen sock) :=
  inferInstanceAs (Decidable (_ ∨ _ ∨ _))

/-- The worker `i` goes on at `place`. -/
def TcpServer.moves (s : TcpServer ι) (i : ι) (place : PoolWorker) : TcpServer ι :=
  { s with worker := Function.update s.worker i place }

/-- `ReleaseSemaphore` by one, of a semaphore with the maximum `0x7fffffff`. -/
def releaseSemaphore (count : ℕ) : ℕ := if count < 0x7fffffff then count + 1 else count

/-- `EnqueueClient` up to its release, the release, and `closesocket` of `Run`. -/
def TcpServer.stepAcceptor (s : TcpServer ι) : Option (TcpServer ι) :=
  match s.acceptor with
  | .accepted sock =>
      if s.clientQueue.length < pendingQueueLimit then
        some { s with
          clientQueue := s.clientQueue ++ [sock], acceptor := .pushed,
          entered := s.entered ++ [sock] }
      else some { s with acceptor := .refused sock, refused := s.refused ++ [sock] }
  | .pushed =>
      some { s with permits := releaseSemaphore s.permits, acceptor := .accepting }
  | .refused sock =>
      some { s with acceptor := .accepting, rejected := s.rejected ++ [sock] }
  | _ => none

/-- The next step of `WorkerThreadProc`; `none` while its wait does not return. -/
def TcpServer.stepWorker (s : TcpServer ι) (i : ι) : Option (TcpServer ι) :=
  match s.worker i with
  | .waiting =>
      if 0 < s.permits then some { s.moves i .permitted with permits := s.permits - 1 }
      else none
  | .permitted =>
      match s.clientQueue with
      | sock :: rest => some { s.moves i (.serving sock) with
          clientQueue := rest, left := s.left ++ [sock] }
      | [] => some (s.moves i .foundEmpty)
  | .foundEmpty => some (s.moves i (if s.running then .waiting else .exited))
  | .serving sock => some { s.moves i .waiting with closed := s.closed ++ [sock] }
  | .exited => none

/-- The TCP server. `accept` returns a handle that is not in use. -/
def tcpServer : Machine (TcpServer ι) (TcpAction ι) where
  next s
    | .run =>
        if s.acceptor = .starting then
          some { s with running := true, acceptor := .accepting }
        else none
    | .accept sock =>
        if s.acceptor = .accepting ∧ ¬ s.IsOpen sock then
          some { s with acceptor := .accepted sock }
        else none
    | .acceptFails =>
        if s.acceptor = .accepting then some { s with acceptor := .exited } else none
    | .acceptor => s.stepAcceptor
    | .worker i => s.stepWorker i

/-- What an action can do. -/
inductive TcpStep (s : TcpServer ι) : TcpServer ι → Prop where
  | run (hat : s.acceptor = .starting) :
      TcpStep s { s with running := true, acceptor := .accepting }
  | accept {sock} (hat : s.acceptor = .accepting) (hnew : ¬ s.IsOpen sock) :
      TcpStep s { s with acceptor := .accepted sock }
  | acceptFails (hat : s.acceptor = .accepting) : TcpStep s { s with acceptor := .exited }
  | push {sock} (hat : s.acceptor = .accepted sock)
      (hroom : s.clientQueue.length < pendingQueueLimit) : TcpStep s { s with
        clientQueue := s.clientQueue ++ [sock], acceptor := .pushed,
        entered := s.entered ++ [sock] }
  | refuse {sock} (hat : s.acceptor = .accepted sock)
      (hfull : pendingQueueLimit ≤ s.clientQueue.length) : TcpStep s { s with
        acceptor := .refused sock, refused := s.refused ++ [sock] }
  | release (hat : s.acceptor = .pushed) : TcpStep s { s with
      permits := releaseSemaphore s.permits, acceptor := .accepting }
  | reject {sock} (hat : s.acceptor = .refused sock) : TcpStep s { s with
      acceptor := .accepting, rejected := s.rejected ++ [sock] }
  | wake {i} (hat : s.worker i = .waiting) (hpermit : 0 < s.permits) :
      TcpStep s { s.moves i .permitted with permits := s.permits - 1 }
  | pop {i sock rest} (hat : s.worker i = .permitted)
      (hqueue : s.clientQueue = sock :: rest) : TcpStep s { s.moves i (.serving sock) with
        clientQueue := rest, left := s.left ++ [sock] }
  | findEmpty {i} (hat : s.worker i = .permitted) (hqueue : s.clientQueue = []) :
      TcpStep s (s.moves i .foundEmpty)
  | goOn {i} (hat : s.worker i = .foundEmpty) :
      TcpStep s (s.moves i (if s.running then .waiting else .exited))
  | close {i sock} (hat : s.worker i = .serving sock) :
      TcpStep s { s.moves i .waiting with closed := s.closed ++ [sock] }

theorem step_of_tcpServer {s s' : TcpServer ι} {a : TcpAction ι}
    (h : tcpServer.next s a = some s') : TcpStep s s' := by
  cases a with
  | run =>
      obtain ⟨hat, h⟩ := Option.ite_none_right_eq_some.mp h
      obtain rfl := Option.some.inj h
      exact .run hat
  | accept sock =>
      obtain ⟨⟨hat, hnew⟩, h⟩ := Option.ite_none_right_eq_some.mp h
      obtain rfl := Option.some.inj h
      exact .accept hat hnew
  | acceptFails =>
      obtain ⟨hat, h⟩ := Option.ite_none_right_eq_some.mp h
      obtain rfl := Option.some.inj h
      exact .acceptFails hat
  | acceptor =>
      simp only [tcpServer, TcpServer.stepAcceptor] at h
      split at h
      · rename_i hat
        split at h
        · rename_i hroom
          obtain rfl := Option.some.inj h
          exact .push hat hroom
        · rename_i hfull
          obtain rfl := Option.some.inj h
          exact .refuse hat (not_lt.mp hfull)
      · rename_i hat
        obtain rfl := Option.some.inj h
        exact .release hat
      · rename_i hat
        obtain rfl := Option.some.inj h
        exact .reject hat
      · cases h
  | worker i =>
      simp only [tcpServer, TcpServer.stepWorker] at h
      split at h
      · rename_i hat
        obtain ⟨hpermit, h⟩ := Option.ite_none_right_eq_some.mp h
        obtain rfl := Option.some.inj h
        exact .wake hat hpermit
      · rename_i hat
        split at h
        · rename_i hqueue
          obtain rfl := Option.some.inj h
          exact .pop hat hqueue
        · rename_i hqueue
          obtain rfl := Option.some.inj h
          exact .findEmpty hat hqueue
      · rename_i hat
        obtain rfl := Option.some.inj h
        exact .goOn hat
      · rename_i hat
        obtain rfl := Option.some.inj h
        exact .close hat
      · cases h

/-! ## Counting over the workers -/

omit [Fintype ι] in
theorem sum_comp_update [Fintype ι] {α : Type*} (count : α → ℕ) (f : ι → α) (i : ι)
    (a : α) :
    ∑ j, count (Function.update f i a j) + count (f i) = ∑ j, count (f j) + count a := by
  have hsplit : ∀ b, ∑ j, count (Function.update f i b j) =
      count b + ∑ j ∈ Finset.univ \ {i}, count (f j) := by
    intro b
    have hcomp : (fun j => count (Function.update f i b j)) =
        Function.update (fun j => count (f j)) i (count b) :=
      Function.comp_update count f i b
    rw [hcomp, Finset.sum_update_of_mem (Finset.mem_univ i)]
  have hself := hsplit (f i)
  rw [Function.update_eq_self] at hself
  rw [hsplit a, hself]
  omega

/-- 1 for a worker between its wait and its pop. -/
def PoolWorker.permit : PoolWorker → ℕ
  | .permitted => 1
  | _ => 0

/-- 1 for a worker whose session has the socket. -/
def PoolWorker.serves (sock : Socket) : PoolWorker → ℕ
  | .serving x => if x = sock then 1 else 0
  | _ => 0

/-- 1 for an accept loop between its push and its release. -/
def Acceptor.pending : Acceptor → ℕ
  | .pushed => 1
  | _ => 0

/-- The refused socket the accept loop has still to close. -/
def Acceptor.refusing : Acceptor → List Socket
  | .refused sock => [sock]
  | _ => []

/-- How many workers have taken a permit and not yet popped. -/
def TcpServer.permitted (s : TcpServer ι) : ℕ := ∑ i, (s.worker i).permit

/-- How many workers have a session on the socket. -/
def TcpServer.holders (s : TcpServer ι) (sock : Socket) : ℕ :=
  ∑ i, (s.worker i).serves sock

theorem permitted_moves (s : TcpServer ι) (i : ι) (place : PoolWorker) :
    (s.moves i place).permitted + (s.worker i).permit = s.permitted + place.permit :=
  sum_comp_update PoolWorker.permit s.worker i place

theorem holders_moves (s : TcpServer ι) (i : ι) (place : PoolWorker) (sock : Socket) :
    (s.moves i place).holders sock + (s.worker i).serves sock =
      s.holders sock + place.serves sock :=
  sum_comp_update (PoolWorker.serves sock) s.worker i place

/-! ## The invariant -/

/-- What every step of any party keeps. -/
structure PoolOk (s : TcpServer ι) : Prop where
  order : s.entered = s.left ++ s.clientQueue
  limit : s.clientQueue.length ≤ pendingQueueLimit
  counted : s.clientQueue.length = s.permits + s.permitted + s.acceptor.pending
  placed : ∀ sock, s.left.count sock = s.holders sock + s.closed.count sock
  single : ∀ sock, s.clientQueue.count sock + s.holders sock +
    s.acceptor.holding.count sock ≤ 1
  refused : s.refused = s.rejected ++ s.acceptor.refusing
  busy : ∀ i, s.worker i ≠ .foundEmpty ∧ s.worker i ≠ .exited

omit [DecidableEq ι] in
theorem poolOk_started : PoolOk (TcpServer.started : TcpServer ι) where
  order := rfl
  limit := Nat.zero_le _
  counted := by simp [TcpServer.started, TcpServer.permitted, PoolWorker.permit,
    Acceptor.pending]
  placed sock := by simp [TcpServer.started, TcpServer.holders, PoolWorker.serves]
  single sock := by simp [TcpServer.started, TcpServer.holders, PoolWorker.serves,
    Acceptor.holding]
  refused := rfl
  busy _ := ⟨nofun, nofun⟩

omit [DecidableEq ι] in
/-- Nobody serves a handle that is not open. -/
theorem holders_of_not_open {s : TcpServer ι} {sock : Socket} (h : ¬ s.IsOpen sock) :
    s.clientQueue.count sock = 0 ∧ s.holders sock = 0 := by
  obtain ⟨hqueue, hrest⟩ := not_or.mp h
  obtain ⟨-, hworkers⟩ := not_or.mp hrest
  refine ⟨List.count_eq_zero_of_not_mem hqueue, Finset.sum_eq_zero fun i _ => ?_⟩
  cases hat : s.worker i with
  | serving x =>
      refine if_neg ?_
      rintro rfl
      exact hworkers ⟨i, hat⟩
  | _ => rfl

omit [Fintype ι] in
theorem busy_moves {s : TcpServer ι}
    (h : ∀ i, s.worker i ≠ .foundEmpty ∧ s.worker i ≠ .exited)
    {i : ι} {place : PoolWorker}
    (hplace : place ≠ .foundEmpty ∧ place ≠ .exited) (j : ι) :
    (s.moves i place).worker j ≠ .foundEmpty ∧ (s.moves i place).worker j ≠ .exited := by
  by_cases hj : j = i
  · subst hj
    simpa [TcpServer.moves] using hplace
  · simpa [TcpServer.moves, hj] using h j

omit [DecidableEq ι] in
/-- A worker with a permit finds a socket. -/
theorem PoolOk.queue_of_permitted {s : TcpServer ι} (h : PoolOk s) {i : ι}
    (hat : s.worker i = .permitted) : s.clientQueue ≠ [] := by
  have hone : (s.worker i).permit ≤ s.permitted :=
    Finset.single_le_sum (f := fun i => (s.worker i).permit) (fun _ _ => Nat.zero_le _)
      (Finset.mem_univ i)
  rw [hat] at hone
  have hcounted := h.counted
  intro hempty
  rw [hempty, List.length_nil] at hcounted
  simp only [PoolWorker.permit] at hone
  omega

/-- A worker goes on at `place`, and the queue, the semaphore and the lists change with
it. -/
theorem PoolOk.moved {s : TcpServer ι} (h : PoolOk s) {i : ι} {place : PoolWorker}
    {clientQueue left closed : List Socket} {permits : ℕ}
    (hplace : place ≠ .foundEmpty ∧ place ≠ .exited)
    (horder : s.left ++ s.clientQueue = left ++ clientQueue)
    (hlimit : clientQueue.length ≤ s.clientQueue.length)
    (hcounted : clientQueue.length + s.permits + (s.worker i).permit =
      s.clientQueue.length + permits + place.permit)
    (hplaced : ∀ x, left.count x + s.closed.count x + (s.worker i).serves x =
      s.left.count x + closed.count x + place.serves x)
    (hsingle : ∀ x, clientQueue.count x + place.serves x ≤
      s.clientQueue.count x + (s.worker i).serves x) :
    PoolOk { s.moves i place with clientQueue, left, closed, permits } := by
  refine ⟨h.order.trans horder, hlimit.trans h.limit, ?_, fun x => ?_,
    fun x => ?_, h.refused, busy_moves h.busy hplace⟩
  · change clientQueue.length = permits + (s.moves i place).permitted + s.acceptor.pending
    have hpermitted := permitted_moves s i place
    have hbefore := h.counted
    omega
  · change left.count x = (s.moves i place).holders x + closed.count x
    have hholders := holders_moves s i place x
    have hbefore := h.placed x
    have hafter := hplaced x
    omega
  · change clientQueue.count x + (s.moves i place).holders x +
      s.acceptor.holding.count x ≤ 1
    have hholders := holders_moves s i place x
    have hbefore := h.single x
    have hafter := hsingle x
    omega

theorem PoolOk.step {s s' : TcpServer ι} (h : PoolOk s) (hstep : TcpStep s s') :
    PoolOk s' := by
  have hcounted := h.counted
  have hlimit := h.limit
  have hrefused := h.refused
  have hsingle := h.single
  cases hstep with
  | run hat =>
      rw [hat] at hcounted hrefused hsingle
      exact ⟨h.order, hlimit, hcounted, h.placed, hsingle, hrefused, h.busy⟩
  | @accept sock hat hnew =>
      rw [hat] at hcounted hrefused hsingle
      refine ⟨h.order, hlimit, hcounted, h.placed, fun x => ?_, hrefused, h.busy⟩
      change s.clientQueue.count x + s.holders x + [sock].count x ≤ 1
      by_cases hx : x = sock
      · subst hx
        obtain ⟨hqueue, hholders⟩ := holders_of_not_open hnew
        simp [hqueue, hholders]
      · simpa [hx, Ne.symm hx, Acceptor.holding] using hsingle x
  | acceptFails hat =>
      rw [hat] at hcounted hrefused hsingle
      exact ⟨h.order, hlimit, hcounted, h.placed, hsingle, hrefused, h.busy⟩
  | @push sock hat hroom =>
      rw [hat] at hcounted hrefused hsingle
      refine ⟨?_, ?_, ?_, h.placed, fun x => ?_, hrefused, h.busy⟩
      · simp only [h.order, List.append_assoc]
      · change (s.clientQueue ++ [sock]).length ≤ pendingQueueLimit
        rw [List.length_append]
        exact hroom
      · change (s.clientQueue ++ [sock]).length = s.permits + s.permitted + 1
        rw [List.length_append, hcounted]
        rfl
      · change (s.clientQueue ++ [sock]).count x + s.holders x + 0 ≤ 1
        have hx := hsingle x
        simp only [Acceptor.holding] at hx
        rw [List.count_append]
        omega
  | @refuse sock hat hfull =>
      rw [hat] at hcounted hrefused hsingle
      refine ⟨h.order, hlimit, hcounted, h.placed, hsingle, ?_, h.busy⟩
      simpa [Acceptor.refusing] using hrefused
  | release hat =>
      rw [hat] at hcounted hrefused hsingle
      have hroom : s.permits < 0x7fffffff := by
        unfold pendingQueueLimit at hlimit
        omega
      refine ⟨h.order, hlimit, ?_, h.placed, hsingle, hrefused, h.busy⟩
      change s.clientQueue.length = releaseSemaphore s.permits + s.permitted + 0
      rw [releaseSemaphore, if_pos hroom, hcounted]
      simp only [Acceptor.pending]
      omega
  | @reject sock hat =>
      rw [hat] at hcounted hrefused hsingle
      refine ⟨h.order, hlimit, hcounted, h.placed, fun x => ?_, ?_, h.busy⟩
      · have hx := hsingle x
        change s.clientQueue.count x + s.holders x + 0 ≤ 1
        omega
      · simpa [Acceptor.refusing] using hrefused
  | @wake i hat hpermit =>
      refine h.moved ⟨nofun, nofun⟩ rfl le_rfl ?_ (fun x => by rw [hat]; rfl) fun x => ?_
      · simp only [TcpServer.moves, hat, PoolWorker.permit]
        omega
      · rw [hat]
        rfl
  | @pop i sock rest hat hqueue =>
      refine h.moved ⟨nofun, nofun⟩ ?_ ?_ ?_ (fun x => ?_) fun x => ?_
      · rw [hqueue, List.append_assoc, List.singleton_append]
      · rw [hqueue]
        exact Nat.le_succ _
      · simp only [TcpServer.moves, hat, hqueue, PoolWorker.permit, List.length_cons]
        omega
      · simp only [TcpServer.moves, hat, PoolWorker.serves, List.count_append,
          List.count_singleton, beq_iff_eq]
        omega
      · simp only [hat, hqueue, PoolWorker.serves, List.count_cons, beq_iff_eq]
        omega
  | @findEmpty i hat hqueue => exact absurd hqueue (h.queue_of_permitted hat)
  | @goOn i hat => exact absurd hat (h.busy i).1
  | @close i sock hat =>
      refine h.moved ⟨nofun, nofun⟩ rfl le_rfl ?_ (fun x => ?_) fun x => ?_
      · rw [hat]
        rfl
      · simp only [TcpServer.moves, hat, PoolWorker.serves, List.count_append,
          List.count_singleton, beq_iff_eq]
        omega
      · rw [hat]
        exact Nat.le_add_right _ _

/-- At most one worker has a session on a socket, and then it is not in the queue. -/
theorem PoolOk.one_place {s : TcpServer ι} (h : PoolOk s) {i : ι} {sock : Socket}
    (hat : s.worker i = .serving sock) :
    sock ∉ s.clientQueue ∧ ∀ j, s.worker j = .serving sock → j = i := by
  have hsingle := h.single sock
  have hone : (s.worker i).serves sock ≤ s.holders sock :=
    Finset.single_le_sum (f := fun i => (s.worker i).serves sock)
      (fun _ _ => Nat.zero_le _) (Finset.mem_univ i)
  rw [hat, PoolWorker.serves, if_pos rfl] at hone
  refine ⟨fun hmem => ?_, fun j hj => ?_⟩
  · have hcount := List.count_pos_iff.mpr hmem
    omega
  · by_contra hne
    have htwo : ∑ k ∈ {i, j}, (s.worker k).serves sock ≤ s.holders sock :=
      Finset.sum_le_sum_of_subset (Finset.subset_univ _)
    rw [Finset.sum_pair (Ne.symm hne), hat, hj, PoolWorker.serves, if_pos rfl] at htwo
    omega

/-- In every interleaving: each time a socket was pushed accounts for one place, in the
queue, with a worker or closed, and an open socket has one place only; sockets are popped
in the order they were pushed; the queue stays within its limit, and a refused socket is
closed once, by the accept loop; a worker with a permit finds a socket; and while a worker
sleeps, every socket in the queue belongs to a worker with a permit or to a release to
come. -/
theorem pool_places_sockets {t : List (TcpAction ι)} {s : TcpServer ι}
    (h : tcpServer.AnyRun .started t s) :
    (∀ sock, s.entered.count sock =
        s.clientQueue.count sock + s.holders sock + s.closed.count sock ∧
      s.clientQueue.count sock + s.holders sock ≤ 1 ∧
      ∀ i, s.worker i = .serving sock →
        sock ∉ s.clientQueue ∧ ∀ j, s.worker j = .serving sock → j = i) ∧
    s.entered = s.left ++ s.clientQueue ∧
    (s.clientQueue.length ≤ 256 ∧ s.refused = s.rejected ++ s.acceptor.refusing) ∧
    (∀ i, (s.worker i = .permitted → s.clientQueue ≠ []) ∧ s.worker i ≠ .foundEmpty) ∧
    ∀ i, s.worker i = .waiting → s.permits = 0 →
      s.clientQueue.length = s.permitted + s.acceptor.pending := by
  have hok : PoolOk s := h.invariant
    (fun _ _ _ hok hnext => PoolOk.step hok (step_of_tcpServer hnext)) poolOk_started
  refine ⟨fun sock => ⟨?_, ?_, fun i => hok.one_place⟩, hok.order,
    ⟨hok.limit, hok.refused⟩, fun i => ⟨hok.queue_of_permitted, (hok.busy i).1⟩,
    fun i _ hpermits => ?_⟩
  · rw [hok.order, List.count_append, hok.placed sock]
    omega
  · have hsingle := hok.single sock
    omega
  · rw [hok.counted, hpermits, Nat.zero_add]

end

/-- A first client has been served and has gone; a second one has been pushed under the
same handle, and its release is still to come. -/
theorem pool_places_second_client :
    ∃ s : TcpServer (Fin 32), tcpServer.AnyRun .started
        [.run, .accept 7, .acceptor, .acceptor, .worker 3, .worker 3,
        .worker 3, .accept 7,
          .acceptor] s ∧
      s.clientQueue.length = s.permitted + 1 := by
  have hrun : tcpServer.AnyRun (.started : TcpServer (Fin 32))
      [.run, .accept 7, .acceptor, .acceptor, .worker 3, .worker 3, .worker 3,
      .accept 7, .acceptor] _ :=
    Machine.run_of_follow rfl
  exact ⟨_, hrun, (pool_places_sockets hrun).2.2.2.2 0 rfl rfl⟩

end CloudAlert
