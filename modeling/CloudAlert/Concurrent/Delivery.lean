import CloudAlert.Concurrent.Notices
import CloudAlert.Concurrent.NotifyQueue

/-!
# From `Notify` to the user

The threads of the server, the task queue and the notification worker as one machine.
The worker runs `ProcessNotifyTask` call by call: it looks the socket up under `m_cs`,
sends with the lock released, and hands the mail to the e-mail unit where there is no
socket or the `send` has not taken the whole line. What `send` returns is up to the
environment.

Every task handed to `Notify` before the destructor is called is served exactly once and
in order, and never both pushed and mailed (`deliveries_serve`). Between the first and the
last step of a run, a trigger and its notification are steps of different threads;
`alerts_delivered` says that once all is quiet the tasks served for an alert are as many
as its triggers.
-/

namespace CloudAlert

open Program

/-! ## `ProcessNotifyTask` -/

/-- The calls of the notification worker. -/
inductive WorkerCall where
  | lookUp (userId : ℤ)          -- `m_userSockets.find`, under `m_cs`
  | send (sock : Socket) (msg : Bytes)
  | sendEmail (recvEmails subject info : Text)  -- `m_pEmailUnit->SendEmail`
deriving DecidableEq

/-- What a call returns. -/
@[reducible] def WorkerCall.Ans : WorkerCall → Type
  | .lookUp _ => Option Socket
  | .send _ _ => ℤ
  | .sendEmail _ _ _ => Unit

/-- Code of the worker. -/
abbrev WorkerAction := Program WorkerCall WorkerCall.Ans Unit

/-- Makes one call. -/
def WorkerCall.make (c : WorkerCall) :
    Program WorkerCall WorkerCall.Ans c.Ans := perform c

/-- A call that has been answered. -/
abbrev WorkerEvent := (c : WorkerCall) × c.Ans

/-- `INVALID_SOCKET`, a `SOCKET` of 64 bits. -/
def invalidSocket : Socket := 2 ^ 64 - 1

/-- The cast of a `size_t` to `int`. -/
def intCast (n : ℕ) : ℤ := Int.bmod n (2 ^ 32)

/-- `Notifier::SendEmail`, where `emailUnit` says whether `m_pEmailUnit` is set. -/
def sendEmail (emailUnit : Bool) (toAddress subject body : Bytes) : WorkerAction :=
  if emailUnit then
    WorkerCall.make (.sendEmail (cstr toAddress) (cstr subject) (cstr body))
  else return ()

/-- The end of `ProcessNotifyTask`. -/
def NotifyTask.mail (emailUnit : Bool) (task : NotifyTask) : WorkerAction :=
  if task.emailAddress ≠ [] then
    sendEmail emailUnit task.emailAddress task.subject task.body
  else return ()

/-- The push of `ProcessNotifyTask`, with what follows when it fails. -/
def NotifyTask.push (emailUnit : Bool) (task : NotifyTask) (sock : Socket) :
    WorkerAction := do
  let ret : ℤ ← WorkerCall.make (.send sock task.msg)
  if ret = intCast task.msg.length then return () else task.mail emailUnit

/-- `Notifier::ProcessNotifyTask`. -/
def processNotifyTask (emailUnit : Bool) (task : NotifyTask) : WorkerAction := do
  let entry : Option Socket ← WorkerCall.make (.lookUp task.userId)
  match entry with
  | none => task.mail emailUnit
  | some sock =>
      if sock ≠ invalidSocket then task.push emailUnit sock else task.mail emailUnit

/-- The calls of a mail, with their answers. -/
def NotifyTask.mailed (emailUnit : Bool) (task : NotifyTask) : List WorkerEvent :=
  if task.emailAddress ≠ [] ∧ emailUnit then
    [⟨.sendEmail (cstr task.emailAddress) (cstr task.subject) (cstr task.body), ()⟩]
  else []

/-- What the worker does for a task: it pushes the line to the socket of the user, or it
hands over the mail because the user is offline or the push has failed. -/
inductive Served (emailUnit : Bool) (task : NotifyTask) : List WorkerEvent → Prop where
  | pushed {sock : Socket} (hsock : sock ≠ invalidSocket) :
      Served emailUnit task
        [⟨.lookUp task.userId, some sock⟩, ⟨.send sock task.msg, intCast task.msg.length⟩]
  | failed {sock : Socket} {ret : ℤ} (hsock : sock ≠ invalidSocket)
      (hret : ret ≠ intCast task.msg.length) :
      Served emailUnit task
        (⟨.lookUp task.userId, some sock⟩ :: ⟨.send sock task.msg, ret⟩ ::
          task.mailed emailUnit)
  | offline {entry : Option Socket} (hentry : ∀ sock ∈ entry, sock = invalidSocket) :
      Served emailUnit task (⟨.lookUp task.userId, entry⟩ :: task.mailed emailUnit)

/-- The events of the code so far, to which it adds those still to come. -/
abbrev Serves (emailUnit : Bool) (task : NotifyTask) (p : WorkerAction)
    (events : List WorkerEvent) : Prop :=
  p.Tracks (fun events c r => events ++ [⟨c, r⟩]) (fun _ => True)
    (fun events _ => Served emailUnit task events) events

section

variable {emailUnit : Bool} {task : NotifyTask}

theorem mail_serves {events : List WorkerEvent}
    (h : Served emailUnit task (events ++ task.mailed emailUnit)) :
    Serves emailUnit task (task.mail emailUnit) events := by
  unfold NotifyTask.mailed at h
  unfold NotifyTask.mail sendEmail
  by_cases haddress : task.emailAddress = []
  · rw [if_neg (not_not.mpr haddress)]
    simp only [haddress, ne_eq, not_true_eq_false, false_and, if_false,
      List.append_nil] at h
    exact h
  · rw [if_pos haddress]
    cases emailUnit with
    | false =>
        simp only [Bool.false_eq_true, and_false, if_false, List.append_nil] at h
        exact h
    | true =>
        rw [if_pos ⟨haddress, rfl⟩] at h
        exact ⟨trivial, fun _ => h⟩

theorem push_serves {sock : Socket} (hsock : sock ≠ invalidSocket) :
    Serves emailUnit task (task.push emailUnit sock)
      [⟨.lookUp task.userId, some sock⟩] := by
  refine ⟨trivial, fun ret : ℤ => ?_⟩
  change Serves emailUnit task (if ret = intCast task.msg.length then _ else _) _
  by_cases hret : ret = intCast task.msg.length
  · rw [if_pos hret, hret]
    exact .pushed hsock
  · rw [if_neg hret]
    exact mail_serves (.failed hsock hret)

theorem processNotifyTask_serves :
    Serves emailUnit task (processNotifyTask emailUnit task) [] := by
  refine ⟨trivial, fun entry : Option Socket => ?_⟩
  cases entry with
  | none => exact mail_serves (.offline (by simp))
  | some sock =>
      change Serves emailUnit task (if sock ≠ invalidSocket then _ else _) _
      by_cases hsock : sock = invalidSocket
      · rw [if_neg (not_not.mpr hsock)]
        exact mail_serves (.offline (by simpa using hsock))
      · rw [if_pos hsock]
        exact push_serves hsock

end

/-! ## The machine -/

section

variable {ι : Type*} [DecidableEq ι]

/-- The threads of the server with their trace, the notifier, what is left of
`ProcessNotifyTask` with its calls so far, and the tasks done with theirs. -/
structure Delivery (ι : Type*) where
  threads : Threads ι
  trace : List (ServerStep ι)
  queue : Notifier
  hand : Option (WorkerAction × List WorkerEvent)
  done : List (NotifyTask × List WorkerEvent)

/-- A server started on a database, with its worker. -/
def Delivery.start (db : AlertDB) (marketData : Bool) (clock : ℕ → LocalTime)
    (memory : ι → Session) : Delivery ι :=
  ⟨System.idleAt (.fresh db marketData clock) memory, [], .new, none, []⟩

/-- What can happen: a step of a thread of the server, of the worker, whose `send` returns
`sent`, or of the destructor. -/
inductive DeliveryAction (ι : Type*) where
  | server (choice : Choice ι Job)
  | worker (sent : ℤ)
  | destroy

/-- The notifier after a step of the server: a call of `Notify` is one of its own. -/
def Notifier.after (s : Notifier) (lbl : ServerStep ι) : Notifier :=
  match lbl.kind with
  | .call (.notify task) _ => (notifier.next s (.notify task)).getD s
  | _ => s

/-- The answer to a call of the worker. -/
def WorkerCall.answer (w : World) (sent : ℤ) : (c : WorkerCall) → c.Ans
  | .lookUp userId => w.userSockets userId
  | .send _ _ => sent
  | .sendEmail _ _ _ => ()

/-- The next step of the worker: one of `ProcessNotifyTask` while it holds a task. -/
def Delivery.stepWorker (emailUnit : Bool) (s : Delivery ι) (sent : ℤ) :
    Option (Delivery ι) :=
  match s.queue.worker, s.hand with
  | .holding task, none =>
      some { s with hand := some (processNotifyTask emailUnit task, []) }
  | .holding _, some (.call c k, events) =>
      let r := c.answer s.threads.shared sent
      some { s with hand := some (k r, events ++ [⟨c, r⟩]) }
  | .holding task, some (.ret (), events) =>
      (notifier.next s.queue .worker).map fun queue => { s with
        queue := queue, hand := none, done := s.done ++ [(task, events)] }
  | _, _ => (notifier.next s.queue .worker).map fun queue => { s with
      queue := queue }

/-- The server and its worker. -/
def deliveries (ι : Type*) [DecidableEq ι] (emailUnit : Bool) :
    Machine (Delivery ι) (DeliveryAction ι) where
  next s
    | .server choice => (server.next s.threads choice).map fun out => { s with
        threads := out.2, trace := s.trace ++ [out.1], queue := s.queue.after out.1 }
    | .worker sent => s.stepWorker emailUnit sent
    | .destroy => (notifier.next s.queue .destroy).map fun queue => { s with
        queue := queue }

/-- What an action can do. -/
inductive DeliveryStep (emailUnit : Bool) (s : Delivery ι) :
    DeliveryAction ι → Delivery ι → Prop where
  | server {choice lbl c} (hnext : server.next s.threads choice = some (lbl, c)) :
      DeliveryStep emailUnit s (.server choice) { s with
        threads := c, trace := s.trace ++ [lbl], queue := s.queue.after lbl }
  | enter {sent task} (hat : s.queue.worker = .holding task) (hhand : s.hand = none) :
      DeliveryStep emailUnit s (.worker sent) { s with
        hand := some (processNotifyTask emailUnit task, []) }
  | act {sent task c k events} (hat : s.queue.worker = .holding task)
      (hhand : s.hand = some (.call c k, events)) :
      DeliveryStep emailUnit s (.worker sent) { s with
        hand := some (k (c.answer s.threads.shared sent),
          events ++ [⟨c, c.answer s.threads.shared sent⟩]) }
  | leave {sent task events} (hat : s.queue.worker = .holding task)
      (hhand : s.hand = some (.ret (), events)) :
      DeliveryStep emailUnit s (.worker sent) { s with
        queue := { s.queue with
          worker := .awake, processed := s.queue.processed ++ [task] }
        hand := none, done := s.done ++ [(task, events)] }
  | turn {sent queue} (hat : ∀ task, s.queue.worker ≠ .holding task)
      (hnext : notifier.next s.queue .worker = some queue) :
      DeliveryStep emailUnit s (.worker sent) { s with queue := queue }
  | destroy {queue} (hnext : notifier.next s.queue .destroy = some queue) :
      DeliveryStep emailUnit s .destroy { s with queue := queue }

theorem step_of_deliveries {emailUnit : Bool} {s s' : Delivery ι} {a : DeliveryAction ι}
    (h : (deliveries ι emailUnit).next s a = some s') :
    DeliveryStep emailUnit s a s' := by
  cases a with
  | server choice =>
      obtain ⟨⟨lbl, c⟩, hnext, rfl⟩ := Option.map_eq_some_iff.mp h
      exact .server hnext
  | worker sent =>
      simp only [deliveries, Delivery.stepWorker] at h
      split at h
      · rename_i task hat hhand
        obtain rfl := Option.some.inj h
        exact .enter hat hhand
      · rename_i task c k events hat hhand
        obtain rfl := Option.some.inj h
        exact .act hat hhand
      · rename_i task events hat hhand
        simp only [notifier, Notifier.stepWorker, hat, Option.map_some] at h
        obtain rfl := Option.some.inj h
        exact .leave hat hhand
      · rename_i hnone hcall hret
        obtain ⟨queue, hnext, rfl⟩ := Option.map_eq_some_iff.mp h
        refine .turn (fun task hat => ?_) hnext
        rcases hhand : s.hand with _ | ⟨p, events⟩
        · exact hnone task hat hhand
        · cases p with
          | call c k => exact hcall task c k events hat hhand
          | ret u => exact hret task events hat hhand
  | destroy =>
      obtain ⟨queue, hnext, rfl⟩ := Option.map_eq_some_iff.mp h
      exact .destroy hnext

/-! ## The invariant -/

omit [DecidableEq ι] in
theorem after_cases (s : Notifier) (lbl : ServerStep ι) :
    (s.after lbl = s ∧ (lbl.told = [] ∨ s.stopping = true)) ∨
      ∃ task, lbl.told = [task] ∧ s.stopping = false ∧ s.after lbl = { s with
        tasks := s.tasks ++ [task], event := true, accepted :=
          s.accepted ++ [task] } := by
  obtain ⟨i, self, job, kind⟩ := lbl
  cases kind with
  | start => exact .inl ⟨rfl, .inl rfl⟩
  | finish => exact .inl ⟨rfl, .inl rfl⟩
  | call o r =>
      cases o with
      | notify task =>
          cases hstop : s.stopping with
          | true =>
              refine .inl ⟨?_, .inr rfl⟩
              simp only [Notifier.after, notifier, hstop, if_true, Option.getD_some]
          | false =>
              refine .inr ⟨task, rfl, rfl, ?_⟩
              simp only [Notifier.after, notifier, hstop, Bool.false_eq_true, if_false,
                Option.getD_some]
      | _ => exact .inl ⟨rfl, .inl rfl⟩

/-- What every step of any party keeps. -/
structure DeliveryOk (emailUnit : Bool) (s : Delivery ι) : Prop where
  queue : NotifierOk s.queue
  processed : s.done.map Prod.fst = s.queue.processed
  served : ∀ d ∈ s.done, Served emailUnit d.1 d.2
  hand : ∀ p events, s.hand = some (p, events) →
    ∃ task, s.queue.worker = .holding task ∧ Serves emailUnit task p events
  accepted : s.queue.accepted <+: s.threads.shared.tasks
  running : s.queue.stopping = false → s.queue.accepted = s.threads.shared.tasks

variable {emailUnit : Bool} {s s' : Delivery ι}

omit [DecidableEq ι] in
theorem deliveryOk_start (db : AlertDB) (marketData : Bool) (clock : ℕ → LocalTime)
    (memory : ι → Session) :
    DeliveryOk emailUnit (.start db marketData clock memory) where
  queue := notifierOk_new
  processed := rfl
  served d hd := by cases hd
  hand p events h := by cases h
  accepted := List.prefix_rfl
  running _ := rfl

theorem DeliveryOk.server (h : DeliveryOk emailUnit s)
    {lbl : ServerStep ι} {c : Threads ι} (hstep : server.Step s.threads lbl c) :
    DeliveryOk emailUnit { s with
      threads := c, trace := s.trace ++ [lbl], queue := s.queue.after lbl } := by
  have htasks := tasks_of_step hstep
  rcases after_cases s.queue lbl with ⟨heq, hnone⟩ | ⟨task, htold, hstop, heq⟩
  · rw [heq]
    refine ⟨h.queue, h.processed, h.served, h.hand, ?_, fun hstop => ?_⟩
    · rw [htasks]
      exact h.accepted.trans (List.prefix_append _ _)
    · rw [htasks, h.running hstop]
      rcases hnone with htold | htrue
      · rw [htold, List.append_nil]
      · exact absurd (hstop.symm.trans htrue) Bool.false_ne_true
  · rw [heq]
    have hall : s.queue.accepted ++ [task] = c.shared.tasks := by
      rw [htasks, htold, h.running hstop]
    exact ⟨h.queue.step (.pushed task hstop), h.processed, h.served, h.hand,
      hall ▸ List.prefix_rfl, fun _ => hall⟩

omit [DecidableEq ι] in
theorem DeliveryOk.turn (h : DeliveryOk emailUnit s) {queue : Notifier}
    (hstep : NotifierStep s.queue queue)
    (hprocessed : queue.processed = s.queue.processed)
    (haccepted : queue.accepted = s.queue.accepted)
    (hstop : queue.stopping = false → s.queue.stopping = false)
    (hhand : s.hand = none ∨ queue.worker = s.queue.worker) :
    DeliveryOk emailUnit { s with queue := queue } := by
  refine ⟨h.queue.step hstep, hprocessed ▸ h.processed, h.served, fun p events hp => ?_,
    haccepted ▸ h.accepted, fun hrun => haccepted ▸ h.running (hstop hrun)⟩
  rcases hhand with hnone | hworker
  · exact absurd (hp.symm.trans hnone) (Option.some_ne_none _)
  · obtain ⟨task, hat, hserves⟩ := h.hand p events hp
    exact ⟨task, hworker.trans hat, hserves⟩

theorem DeliveryOk.step (h : DeliveryOk emailUnit s) {a : DeliveryAction ι}
    (hstep : DeliveryStep emailUnit s a s') : DeliveryOk emailUnit s' := by
  cases hstep with
  | server hnext => exact h.server (System.step_of_next CloudAlert.server hnext)
  | @enter sent task hat hhand =>
      refine ⟨h.queue, h.processed, h.served, fun p events hp => ?_,
        h.accepted, h.running⟩
      obtain ⟨rfl, rfl⟩ := Prod.mk.inj (Option.some.inj hp)
      exact ⟨task, hat, processNotifyTask_serves⟩
  | @act sent task c k events hat hhand =>
      refine ⟨h.queue, h.processed, h.served, fun p events' hp => ?_,
        h.accepted, h.running⟩
      obtain ⟨rfl, rfl⟩ := Prod.mk.inj (Option.some.inj hp)
      obtain ⟨task', hat', hserves⟩ := h.hand _ _ hhand
      exact ⟨task', hat', hserves.2 _⟩
  | @leave sent task events hat hhand =>
      obtain ⟨task', hat', hserves⟩ := h.hand _ _ hhand
      obtain rfl := NotifyWorker.holding.inj (hat.symm.trans hat')
      refine ⟨h.queue.step (.done hat), ?_, fun d hd => ?_,
        fun p events hp => ?_, h.accepted, h.running⟩
      · rw [List.map_append, h.processed]
        rfl
      · rcases List.mem_append.mp hd with hd | hd
        · exact h.served d hd
        · obtain rfl := List.mem_singleton.mp hd
          exact hserves
      · cases hp
  | @turn sent queue hat hnext =>
      have hhand : s.hand = none := by
        by_contra hne
        obtain ⟨⟨p, events⟩, hp⟩ := Option.ne_none_iff_exists'.mp hne
        obtain ⟨task, hat', -⟩ := h.hand p events hp
        exact hat task hat'
      have hturn := step_of_notifier hnext
      have hframe := stepWorker_frame hnext
      refine h.turn hturn ?_ hframe.2 (fun hrun => hframe.1 ▸ hrun) (.inl hhand)
      simp only [notifier, Notifier.stepWorker] at hnext
      split at hnext
      · obtain ⟨-, hnext⟩ := Option.ite_none_right_eq_some.mp hnext
        obtain rfl := Option.some.inj hnext
        rfl
      · split at hnext <;> obtain rfl := Option.some.inj hnext <;> rfl
      · rename_i task hat'
        exact absurd hat' (hat task)
      · obtain rfl := Option.some.inj hnext
        rfl
      · cases hnext
  | @destroy queue hnext =>
      have hturn := step_of_notifier hnext
      simp only [notifier, Notifier.stepDestructor] at hnext
      split at hnext
      · obtain rfl := Option.some.inj hnext
        exact h.turn hturn rfl rfl (fun hrun => absurd hrun.symm Bool.false_ne_true)
          (.inr rfl)
      · obtain rfl := Option.some.inj hnext
        exact h.turn hturn rfl rfl id (.inr rfl)
      · split at hnext
        · obtain rfl := Option.some.inj hnext
          exact h.turn hturn rfl rfl id (.inr rfl)
        · cases hnext
      · cases hnext

/-! ## The worker on its own -/

/-- Nothing is queued or in hand, and `accepted` are the tasks accepted so far. -/
def Delivery.Drained (accepted : List NotifyTask) (s : Delivery ι) : Prop :=
  s.queue.tasks = [] ∧ s.queue.worker.inHand = [] ∧ s.queue.accepted = accepted

/-- The step is one of the worker, whatever `send` returns. -/
def DeliveryAction.isWorker : DeliveryAction ι → Prop
  | .worker _ => True
  | _ => False

/-- The steps of the worker lead there. -/
abbrev Drains (emailUnit : Bool) (s : Delivery ι) : Prop :=
  (deliveries ι emailUnit).Leads DeliveryAction.isWorker
    (Delivery.Drained s.queue.accepted) s

/-- The worker has ended the task in hand. -/
structure Delivery.Ended (s s' : Delivery ι) : Prop where
  worker : s'.queue.worker = .awake
  tasks : s'.queue.tasks = s.queue.tasks
  accepted : s'.queue.accepted = s.queue.accepted
  hand : s'.hand = none

theorem leads_worker {goal : Delivery ι → Prop} (next : ℤ → Delivery ι)
    (hnext : ∀ sent, (deliveries ι emailUnit).next s (.worker sent) = some (next sent))
    (h : ∀ sent,
      (deliveries ι emailUnit).Leads DeliveryAction.isWorker goal (next sent)) :
    (deliveries ι emailUnit).Leads DeliveryAction.isWorker goal s := by
  refine .step (fun a ha => ?_) fun a s' ha hs' => ?_
  · cases a with
    | worker sent => exact Option.isSome_iff_exists.mpr ⟨_, hnext sent⟩
    | server | destroy => cases ha
  · cases a with
    | worker sent =>
        obtain rfl := Option.some.inj ((hnext sent).symm.trans hs')
        exact h sent
    | server | destroy => cases ha

theorem leads_ended {task : NotifyTask} {p : WorkerAction} {events : List WorkerEvent}
    (hat : s.queue.worker = .holding task) (hhand : s.hand = some (p, events)) :
    (deliveries ι emailUnit).Leads DeliveryAction.isWorker s.Ended s := by
  induction p generalizing s events with
  | ret u =>
      refine leads_worker (fun _ => { s with
        queue := { s.queue with
          worker := .awake, processed := s.queue.processed ++ [task] }
        hand := none, done := s.done ++ [(task, events)] }) (fun sent => ?_) fun _ =>
          .here ⟨rfl, rfl, rfl, rfl⟩
      simp [deliveries, Delivery.stepWorker, notifier, Notifier.stepWorker, hat, hhand]
  | call c k ih =>
      let next (sent : ℤ) : Delivery ι := { s with
        hand := some (k (c.answer s.threads.shared sent),
          events ++ [⟨c, c.answer s.threads.shared sent⟩]) }
      refine leads_worker next (fun sent => ?_) fun sent => ?_
      · simp [deliveries, Delivery.stepWorker, hat, hhand, next]
      · have hrest : (deliveries ι emailUnit).Leads DeliveryAction.isWorker
            (next sent).Ended (next sent) := ih _ hat rfl
        exact hrest.mono fun s' h => ⟨h.worker, h.tasks, h.accepted, h.hand⟩

theorem drains_awake (hat : s.queue.worker = .awake) (hhand : s.hand = none) :
    Drains emailUnit s := by
  generalize htasks : s.queue.tasks = tasks
  induction tasks generalizing s with
  | nil => exact .here ⟨htasks, by rw [hat]; rfl, rfl⟩
  | cons task rest ih =>
      let popped : Delivery ι := { s with
        queue := { s.queue with tasks := rest, worker := .holding task } }
      let entered : Delivery ι := { popped with
        hand := some (processNotifyTask emailUnit task, []) }
      refine leads_worker (fun _ => popped) (fun sent => ?_) fun _ =>
        leads_worker (fun _ => entered) (fun sent => ?_) fun _ => ?_
      · simp [deliveries, Delivery.stepWorker, notifier, Notifier.stepWorker, hat, htasks,
          popped]
      · simp [deliveries, Delivery.stepWorker, hhand, popped, entered]
      · have hend : (deliveries ι emailUnit).Leads DeliveryAction.isWorker entered.Ended
            entered := leads_ended rfl rfl
        refine hend.trans fun s' h => ?_
        have hrest := ih h.worker h.hand h.tasks
        rwa [Drains, h.accepted] at hrest

/-- Whatever each `send` returns, the worker by itself serves what is queued. -/
theorem DeliveryOk.drains (h : DeliveryOk emailUnit s) : Drains emailUnit s := by
  by_cases htasks : s.queue.tasks = [] ∧ s.queue.worker.inHand = []
  · exact .here ⟨htasks.1, htasks.2, rfl⟩
  have hhand : (∀ task, s.queue.worker ≠ .holding task) → s.hand = none := by
    intro hat
    by_contra hne
    obtain ⟨⟨p, events⟩, hp⟩ := Option.ne_none_iff_exists'.mp hne
    obtain ⟨task, hat', -⟩ := h.hand p events hp
    exact hat task hat'
  have hawake : s.hand = none → (deliveries ι emailUnit).Leads DeliveryAction.isWorker
      (Delivery.Drained s.queue.accepted)
      { s with queue := { s.queue with worker := .awake } } :=
    drains_awake (s := { s with queue := { s.queue with worker := .awake } }) rfl
  cases hat : s.queue.worker with
  | awake => exact drains_awake hat (hhand (by simp [hat]))
  | holding task =>
      have hend : ∀ s₁ : Delivery ι, s₁.queue = s.queue → s₁.hand.isSome →
          (deliveries ι emailUnit).Leads DeliveryAction.isWorker
            (Delivery.Drained s.queue.accepted) s₁ := by
        intro s₁ hqueue hsome
        obtain ⟨⟨p, events⟩, hp⟩ := Option.isSome_iff_exists.mp hsome
        refine (leads_ended (hqueue ▸ hat) hp).trans fun s' h' => ?_
        have hrest : Drains emailUnit s' := drains_awake h'.worker h'.hand
        rwa [Drains, h'.accepted, hqueue] at hrest
      cases hcode : s.hand with
      | some code => exact hend s rfl (by simp [hcode])
      | none =>
          refine leads_worker (fun _ => { s with
            hand := some (processNotifyTask emailUnit task, []) })
              (fun sent => ?_) fun _ =>
              hend _ rfl rfl
          simp [deliveries, Delivery.stepWorker, hat, hcode]
  | waiting =>
      have hevent : s.queue.event = true :=
        h.queue.queued fun hnil => htasks ⟨hnil, by rw [hat]; rfl⟩
      refine leads_worker (fun _ => { s with queue := { s.queue with worker := .awake } })
        (fun sent => ?_) fun _ => hawake (hhand (by simp [hat]))
      simp [deliveries, Delivery.stepWorker, notifier, Notifier.stepWorker, hat, hevent]
  | idle stopping =>
      cases stopping with
      | true =>
          have hnil := (h.queue.drained (by rw [hat]; rfl)).2
          exact absurd ⟨hnil, by rw [hat]; rfl⟩ htasks
      | false =>
          have hevent : s.queue.event = true :=
            h.queue.queued fun hnil => htasks ⟨hnil, by rw [hat]; rfl⟩
          refine leads_worker
            (fun _ => { s with queue := { s.queue with worker := .waiting } })
            (fun sent => ?_) fun _ => leads_worker
              (fun _ => { s with queue := { s.queue with worker := .awake } })
              (fun sent => ?_) fun _ => hawake (hhand (by simp [hat]))
          · simp [deliveries, Delivery.stepWorker, notifier, Notifier.stepWorker, hat]
          · simp [deliveries, Delivery.stepWorker, notifier, Notifier.stepWorker, hevent]
  | exited =>
      have hnil := (h.queue.drained (by rw [hat]; rfl)).2
      exact absurd ⟨hnil, by rw [hat]; rfl⟩ htasks

/-! ## Every run -/

theorem deliveryOk_of_run
    {ok : List (DeliveryAction ι) → Delivery ι → DeliveryAction ι → Prop}
    {t : List (DeliveryAction ι)} {s₀ : Delivery ι}
    (h : (deliveries ι emailUnit).Run ok s₀ t s) (h₀ : DeliveryOk emailUnit s₀) :
    DeliveryOk emailUnit s :=
  h.invariant (fun _ _ _ hok hnext => hok.step (step_of_deliveries hnext)) h₀

/-- The destructor stops the notifier, and nothing else does. -/
theorem mem_of_stopping {t : List (DeliveryAction ι)} {s₀ : Delivery ι}
    (h : (deliveries ι emailUnit).AnyRun s₀ t s) (h₀ : s₀.queue.stopping = false)
    (hstop : s.queue.stopping = true) : .destroy ∈ t := by
  induction h with
  | nil => exact absurd (h₀.symm.trans hstop) Bool.false_ne_true
  | @snoc t s a s' _ hnext _ ih =>
      rw [List.mem_append, List.mem_singleton]
      by_cases hbefore : s.queue.stopping = true
      · exact .inl (ih hbefore)
      · cases step_of_deliveries hnext with
        | @server choice lbl c =>
            rcases after_cases s.queue lbl with ⟨heq, -⟩ | ⟨task, -, hrun, heq⟩
            · exact absurd (heq ▸ hstop) hbefore
            · rw [heq] at hstop
              exact absurd hstop hbefore
        | enter => exact absurd hstop hbefore
        | act => exact absurd hstop hbefore
        | leave => exact absurd hstop hbefore
        | turn _ hturn => exact absurd ((stepWorker_frame hturn).1 ▸ hstop) hbefore
        | destroy => exact .inr rfl

/-- Once `m_stopping` is set it stays set, and nothing more is accepted. -/
theorem accepted_of_stopped {t : List (DeliveryAction ι)} {s₀ : Delivery ι}
    (h : (deliveries ι emailUnit).AnyRun s₀ t s) (h₀ : s₀.queue.stopping = true) :
    s.queue.stopping = true ∧ s.queue.accepted = s₀.queue.accepted := by
  have hkeeps :
      ∀ s a s', (s.queue.stopping = true ∧ s.queue.accepted = s₀.queue.accepted) →
      (deliveries ι emailUnit).next s a = some s' →
      s'.queue.stopping = true ∧ s'.queue.accepted = s₀.queue.accepted := by
    intro s a s' hs hnext
    have hqueue : ∀ a queue, notifier.next s.queue a = some queue →
        queue.stopping = true ∧ queue.accepted = s₀.queue.accepted := by
      intro a queue hnext
      have hstep : notifier.AnyRun s.queue [a] queue := .snoc (t := []) .nil hnext trivial
      exact (accepted_of_stopping hstep hs.1).imp_right fun heq => heq.trans hs.2
    cases step_of_deliveries hnext with
    | @server choice lbl c =>
        rcases after_cases s.queue lbl with ⟨heq, -⟩ | ⟨task, -, hrun, -⟩
        · simpa only [heq] using hs
        · exact absurd (hrun.symm.trans hs.1) Bool.false_ne_true
    | enter | act | leave => exact hs
    | turn _ hturn => exact hqueue _ _ hturn
    | destroy hdestroy => exact hqueue _ _ hdestroy
  have hs := h.invariant hkeeps ⟨h₀, rfl⟩
  exact hs

/-- The tasks accepted are those handed to `Notify` until the destructor is called. -/
theorem accepted_at_destroy {t t' : List (DeliveryAction ι)} {s₀ : Delivery ι}
    (h₀ : DeliveryOk emailUnit s₀) (hrunning : s₀.queue.stopping = false)
    (h : (deliveries ι emailUnit).AnyRun s₀ (t ++ .destroy :: t') s)
    (hfirst : .destroy ∉ t) :
    ∃ s₁, (deliveries ι emailUnit).AnyRun s₀ t s₁ ∧
      s.queue.accepted = s₁.threads.shared.tasks := by
  obtain ⟨s₁, hbefore, hrest⟩ := h.split
  obtain ⟨s₂, hnext, hafter⟩ := Option.bind_eq_some_iff.mp hrest
  have hok := deliveryOk_of_run hbefore h₀
  have hstop : s₁.queue.stopping = false := by
    by_contra hstop
    exact hfirst (mem_of_stopping hbefore hrunning (Bool.not_eq_false _ ▸ hstop))
  have hcalled : s₁.queue.destructor = .notCalled :=
    hok.queue.notCalled (by rw [hstop]; exact Bool.false_ne_true)
  simp only [deliveries, notifier, Notifier.stepDestructor, hcalled,
    Option.map_some] at hnext
  obtain rfl := Option.some.inj hnext
  exact ⟨s₁, hbefore,
    (accepted_of_stopped (Machine.run_of_follow hafter) rfl).2.trans (hok.running hstop)⟩

/-- In every interleaving the tasks done, the one in hand and the queue are together, in
order, the tasks handed to `Notify` until the destructor is called; each task done has
been pushed, or mailed, or neither where there is no address or no e-mail unit; and from
any state the worker on its own serves all that is accepted, whatever each `send`
returns. -/
theorem deliveries_serve {db : AlertDB} {marketData : Bool} {clock : ℕ → LocalTime}
    {memory : ι → Session} {t : List (DeliveryAction ι)}
    (h : (deliveries ι emailUnit).AnyRun (.start db marketData clock memory) t s) :
    s.done.map Prod.fst ++ s.queue.worker.inHand ++ s.queue.tasks = s.queue.accepted ∧
    s.queue.accepted <+: s.threads.shared.tasks ∧
    (.destroy ∉ t → s.queue.accepted = s.threads.shared.tasks) ∧
    (∀ t₁ t₂, t = t₁ ++ .destroy :: t₂ → .destroy ∉ t₁ →
      ∃ s₁, (deliveries ι emailUnit).AnyRun (.start db marketData clock memory) t₁ s₁ ∧
        s.queue.accepted = s₁.threads.shared.tasks) ∧
    (∀ d ∈ s.done, Served emailUnit d.1 d.2) ∧
    ∀ sends : ℕ → ℤ, ∃ n s',
      (deliveries ι emailUnit).follow s ((List.range n).map fun k => .worker (sends k)) =
        some s' ∧ s'.done.map Prod.fst = s.queue.accepted := by
  have hok := deliveryOk_of_run h (deliveryOk_start db marketData clock memory)
  refine ⟨?_, hok.accepted, fun hnot => ?_, ?_, hok.served, fun sends => ?_⟩
  · rw [hok.processed, ← hok.queue.fifo]
  · refine hok.running ?_
    by_contra hstop
    exact hnot (mem_of_stopping h rfl (Bool.not_eq_false _ ▸ hstop))
  · rintro t₁ t₂ rfl hfirst
    exact accepted_at_destroy (deliveryOk_start db marketData clock memory) rfl h hfirst
  · obtain ⟨n, s', hfollow, htasks, hhand, haccepted⟩ :=
      hok.drains.follow (fun k => .worker (sends k)) fun _ => trivial
    refine ⟨n, s', hfollow, ?_⟩
    have hok' := deliveryOk_of_run (Machine.run_of_follow hfollow) hok
    have hfifo := hok'.queue.fifo
    rw [hhand, htasks, List.append_nil, List.append_nil, haccepted] at hfifo
    exact hok'.processed.trans hfifo.symm

/-! ## A run -/

/-- The server on an empty database. -/
def newDelivery : Delivery (Fin 2) :=
  .start .created false (fun _ => ⟨2025, 6, 0, 9, 30, 0⟩) fun _ => .new 0

/-- A tick triggers ann's alert. The worker wakes up, pushes the line of 61 bytes to her,
and goes back to its wait. -/
def pushedTick : List (DeliveryAction (Fin 2)) :=
  (tickNotifies ++ [Choice.step 1]).map .server ++ List.replicate 8 (.worker 61)

/-- The worker is at its wait and the event is not signalled. -/
def Notifier.sleeps (s : Notifier) : Bool :=
  match s.worker with
  | .waiting => !s.event
  | _ => false

theorem Notifier.blocked_of_sleeps {s : Notifier} (h : s.sleeps) : s.Blocked := by
  unfold sleeps at h
  split at h
  · rename_i hat
    exact ⟨hat, by simpa using h⟩
  · cases h

set_option maxRecDepth 10000 in
theorem deliveries_serve_tick :
    ∃ t s, (deliveries (Fin 2) true).AnyRun newDelivery t s ∧ s.done ≠ [] ∧
      ∀ d ∈ s.done, Served true d.1 d.2 := by
  have hstate : ((deliveries (Fin 2) true).follow newDelivery pushedTick).map
      (fun s => s.done.isEmpty) = some false := by decide +kernel
  obtain ⟨s, hfollow, hdone⟩ := Option.map_eq_some_iff.mp hstate
  have hrun := Machine.run_of_follow hfollow
  obtain ⟨-, -, -, -, hserved, -⟩ := deliveries_serve hrun
  exact ⟨_, s, hrun, by simpa using hdone, hserved⟩

/-! ## Triggers and what comes of them -/

/-- No job ends the process. -/
def LeavesAlive (s : Delivery ι) : DeliveryAction ι → Prop
  | .server choice =>
      ∀ out ∈ server.next s.threads choice, StaysAlive s.trace s.threads out.1
  | _ => True

/-- The step ends the process. -/
def ServerStep.ends (lbl : ServerStep ι) : Bool :=
  match lbl.kind with
  | .finish reply => reply.ended
  | _ => false

omit [DecidableEq ι] in
theorem not_ends_iff (t : List (ServerStep ι)) (c : Threads ι) (lbl : ServerStep ι) :
    lbl.ends = false ↔ StaysAlive t c lbl := by
  obtain ⟨i, self, job, kind⟩ := lbl
  cases kind with
  | finish reply =>
      exact ⟨fun h reply' hkind => StepKind.finish.inj hkind ▸ h, fun h => h reply rfl⟩
  | _ => exact ⟨fun _ reply hkind => (by cases hkind), fun _ => rfl⟩

instance decidable_staysAlive (t : List (ServerStep ι)) (c : Threads ι)
    (lbl : ServerStep ι) : Decidable (StaysAlive t c lbl) :=
  decidable_of_iff _ (not_ends_iff t c lbl)

instance decidable_leavesAlive (s : Delivery ι) (a : DeliveryAction ι) :
    Decidable (LeavesAlive s a) := by
  unfold LeavesAlive
  split <;> infer_instance

/-- The threads are idle, the worker sleeps, and the destructor has not been called. -/
structure Delivery.Quiet (s : Delivery ι) : Prop where
  threads : ∀ i, (s.threads.thread i).isIdle
  worker : s.queue.Blocked
  running : s.queue.stopping = false

section

variable {db : AlertDB} {marketData : Bool} {clock : ℕ → LocalTime} {memory : ι → Session}
  {t : List (DeliveryAction ι)}

theorem trace_of_run
    (h : (deliveries ι emailUnit).Run (fun _ => LeavesAlive)
      (.start db marketData clock memory) t s) :
    server.Run StaysAlive (System.idleAt (.fresh db marketData clock) memory) s.trace
      s.threads := by
  induction h with
  | nil => exact .nil
  | snoc _ hnext hok ih =>
      cases step_of_deliveries hnext with
      | server hserver => exact ih.snoc hserver (hok _ hserver)
      | _ => exact ih

/-- While the process lives, and whenever all is quiet, each alert has been served as many
tasks as it has had triggers, and all of them were for its owner. -/
theorem alerts_delivered
    (h : (deliveries ι emailUnit).Run (fun _ => LeavesAlive)
      (.start db marketData clock memory) t s) (hquiet : s.Quiet) (alertId : ℤ) :
    (s.done.countP fun d => d.1.isFor alertId) =
      s.trace.countP (fun lbl => lbl.does (Call.triggers alertId)) ∧
    ∀ d ∈ s.done, Served emailUnit d.1 d.2 ∧
      ∃ r ∈ s.threads.shared.db.alerts.rows, d.1.isFor r.id ∧ d.1.userId = r.userId := by
  have hok := deliveryOk_of_run h (deliveryOk_start db marketData clock memory)
  have htrace := trace_of_run h
  have hdone : s.done.map Prod.fst = s.threads.shared.tasks := by
    rw [hok.processed, hok.queue.processed_of_blocked hquiet.worker,
      hok.running hquiet.running]
  constructor
  · have hcount := countP_tasks alertId htrace
    rw [← hdone, List.countP_map,
      ← triggers_eq_tells alertId htrace hquiet.threads] at hcount
    exact hcount.trans (Nat.zero_add _)
  · intro d hd
    have hmem : d.1 ∈ s.threads.shared.tasks := hdone ▸ List.mem_map_of_mem hd
    exact ⟨hok.served d hd, owner_of_tasks rfl rfl htrace.any d.1 hmem⟩

end

set_option maxRecDepth 10000 in
theorem tick_delivered :
    ∃ t s, (deliveries (Fin 2) true).Run (fun _ => LeavesAlive) newDelivery t s ∧
      (s.done.countP fun d => d.1.isFor 1) = 1 ∧
      s.trace.countP (fun lbl => lbl.does (Call.triggers 1)) = 1 := by
  have hstate :
      ((deliveries (Fin 2) true).followIf (fun _ s a => decide (LeavesAlive s a)) []
      newDelivery pushedTick).map (fun s => (s.queue.sleeps, s.queue.stopping,
        decide (∀ i, (s.threads.thread i).isIdle),
        s.done.countP fun d => d.1.isFor 1)) = some (true, false, true, 1) := by
    decide +kernel
  obtain ⟨s, hfollow, hs⟩ := Option.map_eq_some_iff.mp hstate
  obtain ⟨hsleeps, hs⟩ := Prod.mk.inj hs
  obtain ⟨hrunning, hs⟩ := Prod.mk.inj hs
  obtain ⟨hidle, hcount⟩ := Prod.mk.inj hs
  have hrun := (Machine.Run.followIf_append .nil hfollow).mono fun _ _ _ =>
    of_decide_eq_true
  have hquiet : s.Quiet :=
    ⟨of_decide_eq_true hidle, s.queue.blocked_of_sleeps hsleeps, hrunning⟩
  obtain ⟨hdone, -⟩ := alerts_delivered hrun hquiet 1
  exact ⟨_, s, hrun, hcount, hdone.symm.trans hcount⟩

end

end CloudAlert
