import CloudAlert.Program.Machine
import CloudAlert.Server.World

/-!
# The queue of the notifier

`Notify`, the notification worker and the destructor of `Notifier` as one machine.
An action is a section under `m_queueCs`, a `SetEvent` outside it, a wait that
returns, or a step of the worker between these; any number of threads call `Notify`.
The event is manual-reset: a wait does not reset it, only the worker does, in the
section in which it finds no task.

`World.tasks` lists the tasks handed to `Notify`. As long as the destructor has not
been called, these are the accepted ones (`accepted_eq_handed`).
-/

namespace CloudAlert

/-! ## The machine -/

/-- Where `WorkerThreadProc` is. -/
inductive NotifyWorker where
  | waiting                      -- at the wait for `m_taskEvent`
  | awake                        -- at the section of the inner loop
  | holding (task : NotifyTask)  -- has popped a task, at `ProcessNotifyTask`
  | idle (stopping : Bool)       -- has found no task and read `m_stopping`
  | exited

/-- Where `~Notifier` is. -/
inductive NotifyDestructor where
  | notCalled
  | stopping                     -- has set `m_stopping`, at `SetEvent`
  | signalled                    -- at the wait for the worker
  | joined
deriving DecidableEq

/-- The fields of `Notifier` that the queue consists of, where the worker and the
destructor are, and the tasks pushed and processed so far. -/
structure Notifier where
  tasks : List NotifyTask
  stopping : Bool
  event : Bool
  worker : NotifyWorker
  destructor : NotifyDestructor
  accepted : List NotifyTask
  processed : List NotifyTask

/-- After the constructor. -/
def Notifier.new : Notifier := ⟨[], false, false, .waiting, .notCalled, [], []⟩

/-- What can happen: a call of `Notify`, the next step of the worker or of the
destructor. -/
inductive NotifierAction where
  | notify (task : NotifyTask)
  | worker
  | destroy

/-- The next step of `WorkerThreadProc`; `none` while its wait does not return. -/
def Notifier.stepWorker (s : Notifier) : Option Notifier :=
  match s.worker with
  | .waiting => if s.event then some { s with worker := .awake } else none
  | .awake =>
      match s.tasks with
      | task :: rest => some { s with tasks := rest, worker := .holding task }
      | [] => some { s with event := false, worker := .idle s.stopping }
  | .holding task =>
      some { s with worker := .awake, processed := s.processed ++ [task] }
  | .idle stopping => some { s with worker := if stopping then .exited else .waiting }
  | .exited => none

/-- The next step of `~Notifier`; its wait for the worker does not time out. -/
def Notifier.stepDestructor (s : Notifier) : Option Notifier :=
  match s.destructor with
  | .notCalled => some { s with stopping := true, destructor := .stopping }
  | .stopping => some { s with event := true, destructor := .signalled }
  | .signalled =>
      match s.worker with
      | .exited => some { s with destructor := .joined }
      | _ => none
  | .joined => none

/-- The notifier. -/
def notifier : Machine Notifier NotifierAction where
  next s
    | .notify task =>
        if s.stopping then some s
        else some { s with
          tasks := s.tasks ++ [task], event := true, accepted := s.accepted ++ [task] }
    | .worker => s.stepWorker
    | .destroy => s.stepDestructor

/-- What an action can do. -/
inductive NotifierStep (s : Notifier) : Notifier → Prop where
  | rejected (hstop : s.stopping = true) : NotifierStep s s
  | pushed (task : NotifyTask) (hstop : s.stopping = false) : NotifierStep s { s with
      tasks := s.tasks ++ [task], event := true, accepted := s.accepted ++ [task] }
  | woken (hat : s.worker = .waiting) (hevent : s.event = true) :
      NotifierStep s { s with worker := .awake }
  | popped {task rest} (hat : s.worker = .awake) (htasks : s.tasks = task :: rest) :
      NotifierStep s { s with tasks := rest, worker := .holding task }
  | empty (hat : s.worker = .awake) (htasks : s.tasks = []) :
      NotifierStep s { s with event := false, worker := .idle s.stopping }
  | done {task} (hat : s.worker = .holding task) :
      NotifierStep s { s with worker := .awake, processed := s.processed ++ [task] }
  | goOn (hat : s.worker = .idle false) : NotifierStep s { s with worker := .waiting }
  | leave (hat : s.worker = .idle true) : NotifierStep s { s with worker := .exited }
  | stop (hat : s.destructor = .notCalled) :
      NotifierStep s { s with stopping := true, destructor := .stopping }
  | signal (hat : s.destructor = .stopping) :
      NotifierStep s { s with event := true, destructor := .signalled }
  | join (hat : s.destructor = .signalled) (hworker : s.worker = .exited) :
      NotifierStep s { s with destructor := .joined }

theorem step_of_notifier {s s' : Notifier} {a : NotifierAction}
    (h : notifier.next s a = some s') : NotifierStep s s' := by
  cases a with
  | notify task =>
      simp only [notifier] at h
      split at h
      · rename_i hstop
        obtain rfl := Option.some.inj h
        exact .rejected hstop
      · rename_i hstop
        obtain rfl := Option.some.inj h
        exact .pushed task (Bool.not_eq_true _ ▸ hstop)
  | worker =>
      simp only [notifier, Notifier.stepWorker] at h
      split at h
      · rename_i hat
        split at h
        · rename_i hevent
          obtain rfl := Option.some.inj h
          exact .woken hat hevent
        · cases h
      · rename_i hat
        split at h
        · rename_i htasks
          obtain rfl := Option.some.inj h
          exact .popped hat htasks
        · rename_i htasks
          obtain rfl := Option.some.inj h
          exact .empty hat htasks
      · rename_i hat
        obtain rfl := Option.some.inj h
        exact .done hat
      · rename_i stopping hat
        obtain rfl := Option.some.inj h
        cases stopping with
        | false => exact .goOn hat
        | true => exact .leave hat
      · cases h
  | destroy =>
      simp only [notifier, Notifier.stepDestructor] at h
      split at h
      · rename_i hat
        obtain rfl := Option.some.inj h
        exact .stop hat
      · rename_i hat
        obtain rfl := Option.some.inj h
        exact .signal hat
      · rename_i hat
        split at h
        · rename_i hworker
          obtain rfl := Option.some.inj h
          exact .join hat hworker
        · cases h
      · cases h

theorem stepWorker_frame {s s' : Notifier} (h : s.stepWorker = some s') :
    s'.stopping = s.stopping ∧ s'.accepted = s.accepted := by
  simp only [Notifier.stepWorker] at h
  split at h
  · split at h
    · obtain rfl := Option.some.inj h
      exact ⟨rfl, rfl⟩
    · cases h
  · split at h <;> obtain rfl := Option.some.inj h <;> exact ⟨rfl, rfl⟩
  · obtain rfl := Option.some.inj h
    exact ⟨rfl, rfl⟩
  · obtain rfl := Option.some.inj h
    exact ⟨rfl, rfl⟩
  · cases h

/-! ## The invariant -/

/-- The task the worker has popped and not yet processed. -/
def NotifyWorker.inHand : NotifyWorker → List NotifyTask
  | .holding task => [task]
  | _ => []

/-- The worker has seen `m_stopping` with no task left, or is gone. -/
def NotifyWorker.leaving : NotifyWorker → Bool
  | .idle stopping => stopping
  | .exited => true
  | _ => false

/-- The destructor has passed its `SetEvent`. -/
def NotifyDestructor.passedSetEvent : NotifyDestructor → Bool
  | .signalled | .joined => true
  | _ => false

/-- The worker is at its wait and the event is not signalled. -/
def Notifier.Blocked (s : Notifier) : Prop := s.worker = .waiting ∧ s.event = false

/-- What every step of any party keeps. -/
structure NotifierOk (s : Notifier) : Prop where
  stopped : s.stopping = decide (s.destructor ≠ .notCalled)
  -- the event is only reset in a section that finds the queue empty
  queued : s.tasks ≠ [] → s.event = true
  -- such a section after the destructor's has read `m_stopping`
  woken : s.destructor.passedSetEvent → s.event = true ∨ s.worker.leaving
  fifo : s.accepted = s.processed ++ s.worker.inHand ++ s.tasks
  drained : s.worker.leaving → s.stopping = true ∧ s.tasks = []

theorem notifierOk_new : NotifierOk .new where
  stopped := rfl
  queued h := absurd rfl h
  woken h := by cases h
  fifo := rfl
  drained h := by cases h

theorem NotifierOk.step {s s' : Notifier} (h : NotifierOk s) (hstep : NotifierStep s s') :
    NotifierOk s' := by
  have hfifo := h.fifo
  have hwoken := h.woken
  have hdrained := h.drained
  cases hstep with
  | rejected => exact h
  | pushed task hstop =>
      refine ⟨h.stopped, fun _ => rfl, fun _ => .inl rfl, ?_, fun hleft => ?_⟩
      · simp only [hfifo, List.append_assoc]
      · rw [(hdrained hleft).1] at hstop
        cases hstop
  | woken hat hevent =>
      rw [hat] at hfifo
      exact ⟨h.stopped, h.queued, fun _ => .inl hevent, hfifo, nofun⟩
  | popped hat htasks =>
      rw [hat, htasks] at hfifo
      have hevent : s.event = true := h.queued (by simp [htasks])
      exact ⟨h.stopped, fun _ => hevent, fun _ => .inl hevent,
        by simpa [NotifyWorker.inHand] using hfifo, nofun⟩
  | empty hat htasks =>
      rw [hat] at hfifo
      refine ⟨h.stopped, fun hne => absurd htasks hne, fun hpassed => ?_, hfifo,
        fun hleft => ⟨hleft, htasks⟩⟩
      have hcalled : s.destructor ≠ .notCalled := by
        intro heq
        rw [heq] at hpassed
        cases hpassed
      exact .inr (h.stopped.trans (decide_eq_true hcalled))
  | done hat =>
      rw [hat] at hfifo hwoken
      refine ⟨h.stopped, h.queued, fun hpassed => ?_, ?_, nofun⟩
      · exact .inl ((hwoken hpassed).resolve_right nofun)
      · simpa [NotifyWorker.inHand] using hfifo
  | goOn hat =>
      rw [hat] at hfifo hwoken
      exact ⟨h.stopped, h.queued,
        fun hpassed => .inl ((hwoken hpassed).resolve_right nofun), hfifo, nofun⟩
  | leave hat =>
      rw [hat] at hfifo hdrained
      exact ⟨h.stopped, h.queued, fun _ => .inr rfl, hfifo, fun _ => hdrained rfl⟩
  | stop hat =>
      refine ⟨rfl, h.queued, nofun, hfifo, fun hleft => ⟨rfl, (hdrained hleft).2⟩⟩
  | signal hat =>
      refine ⟨?_, fun _ => rfl, fun _ => .inl rfl, hfifo, hdrained⟩
      rw [h.stopped, hat]
      rfl
  | join hat hworker =>
      rw [hat] at hwoken
      refine ⟨?_, h.queued, fun _ => hwoken rfl, hfifo, hdrained⟩
      rw [h.stopped, hat]
      rfl

theorem NotifierOk.notCalled {s : Notifier} (h : NotifierOk s) (hstop : ¬ s.stopping) :
    s.destructor = .notCalled := by
  rw [h.stopped] at hstop
  simpa using hstop

/-- The worker is never left asleep with work to do, or with the destructor waiting
for it. -/
theorem NotifierOk.not_blocked {s : Notifier} (h : NotifierOk s)
    (hwork : s.tasks ≠ [] ∨ s.destructor.passedSetEvent) : ¬ s.Blocked := by
  rintro ⟨hat, hevent⟩
  have hsignalled : s.event = true := by
    rcases hwork with hne | hpassed
    · exact h.queued hne
    · refine (h.woken hpassed).resolve_right fun hleft => ?_
      rw [hat] at hleft
      cases hleft
  rw [hevent] at hsignalled
  cases hsignalled

/-- When the worker sleeps, every accepted task has been processed. -/
theorem NotifierOk.processed_of_blocked {s : Notifier} (h : NotifierOk s)
    (hblocked : s.Blocked) : s.processed = s.accepted := by
  have htasks : s.tasks = [] := by
    by_contra hne
    exact h.not_blocked (.inl hne) hblocked
  rw [h.fifo, htasks, hblocked.1]
  simp [NotifyWorker.inHand]

/-- When the worker is gone, every accepted task has been processed. -/
theorem NotifierOk.processed_of_exited {s : Notifier} (h : NotifierOk s)
    (hexited : s.worker = .exited) : s.processed = s.accepted ∧ s.tasks = [] := by
  have htasks := (h.drained (by rw [hexited]; rfl)).2
  refine ⟨?_, htasks⟩
  rw [h.fifo, htasks, hexited]
  simp [NotifyWorker.inHand]

section Runs

variable {ok : List NotifierAction → Notifier → NotifierAction → Prop}
  {s₀ s : Notifier} {t : List NotifierAction}

theorem notifierOk_of_run (h : notifier.Run ok s₀ t s) (h₀ : NotifierOk s₀) :
    NotifierOk s :=
  h.invariant (fun _ _ _ hok hnext => hok.step (step_of_notifier hnext)) h₀

/-- Once `m_stopping` is set it stays set, and nothing more is accepted. -/
theorem accepted_of_stopping (h : notifier.Run ok s₀ t s) (hstop : s₀.stopping = true) :
    s.stopping = true ∧ s.accepted = s₀.accepted := by
  have hkeeps : ∀ s a s', (s.stopping = true ∧ s.accepted = s₀.accepted) →
      notifier.next s a = some s' → s'.stopping = true ∧ s'.accepted = s₀.accepted := by
    intro s a s' hs hnext
    cases step_of_notifier hnext with
    | pushed task hrunning =>
        rw [hs.1] at hrunning
        cases hrunning
    | stop => exact ⟨rfl, hs.2⟩
    | _ => exact hs
  have hs := h.invariant hkeeps ⟨hstop, rfl⟩
  exact hs

/-- The tasks handed to `Notify` before the destructor is called, oldest first. -/
def handed : List NotifierAction → List NotifyTask
  | [] => []
  | .notify task :: t => task :: handed t
  | .worker :: t => handed t
  | .destroy :: _ => []

theorem handed_append {t : List NotifierAction} (h : .destroy ∉ t)
    (t' : List NotifierAction) : handed (t ++ t') = handed t ++ handed t' := by
  induction t with
  | nil => rfl
  | cons a t ih =>
      have hrest := ih (List.not_mem_of_not_mem_cons h)
      cases a with
      | notify task => exact congrArg (task :: ·) hrest
      | worker => exact hrest
      | destroy => exact absurd List.mem_cons_self h

theorem handed_append_of_mem {t : List NotifierAction} (h : .destroy ∈ t)
    (t' : List NotifierAction) : handed (t ++ t') = handed t := by
  induction t with
  | nil => cases h
  | cons a t ih =>
      cases a with
      | notify task => exact congrArg (task :: ·) (ih (by simpa using h))
      | worker => exact ih (by simpa using h)
      | destroy => rfl

/-- The tasks accepted are those handed over before the destructor is called. -/
theorem accepted_eq_handed (h : notifier.Run ok .new t s) :
    s.accepted = handed t ∧ (s.stopping = true ↔ .destroy ∈ t) := by
  induction h with
  | nil => exact ⟨rfl, iff_of_false Bool.false_ne_true List.not_mem_nil⟩
  | @snoc t s a s' hrun hnext _ ih =>
      obtain ⟨haccepted, hstopping⟩ := ih
      rw [List.mem_append, List.mem_singleton]
      by_cases hstop : s.stopping = true
      · have hmem := hstopping.mp hstop
        have hstep : notifier.AnyRun s [a] s' := .snoc (t := []) .nil hnext trivial
        obtain ⟨hstop', hkept⟩ := accepted_of_stopping hstep hstop
        rw [handed_append_of_mem hmem, hkept]
        exact ⟨haccepted, iff_of_true hstop' (.inl hmem)⟩
      · have hmem : .destroy ∉ t := fun hmem => hstop (hstopping.mpr hmem)
        rw [handed_append hmem]
        cases a with
        | notify task =>
            obtain rfl := Option.some.inj ((if_neg hstop).symm.trans hnext)
            exact ⟨congrArg (· ++ [task]) haccepted,
              iff_of_false hstop fun hor => hor.elim hmem nofun⟩
        | worker =>
            obtain ⟨hflag, hkept⟩ := stepWorker_frame hnext
            rw [hflag, hkept, handed, handed, List.append_nil]
            exact ⟨haccepted, iff_of_false hstop fun hor => hor.elim hmem nofun⟩
        | destroy =>
            have hcalled : s.destructor = .notCalled :=
              (notifierOk_of_run hrun notifierOk_new).notCalled hstop
            simp only [notifier, Notifier.stepDestructor, hcalled] at hnext
            obtain rfl := Option.some.inj hnext
            rw [handed, List.append_nil]
            exact ⟨haccepted, iff_of_true rfl (.inr rfl)⟩

end Runs

/-! ## Runs of the notifier -/

/-- In every interleaving: the worker does not sleep while there is a task or once the
destructor has passed its `SetEvent`; the tasks processed, the one in the worker's hand
and the queue are together the accepted tasks, in the order they were pushed; and when
the worker exits, all of them have been processed and none is accepted any more. -/
theorem notifier_serves_accepted {t : List NotifierAction} {s : Notifier}
    (h : notifier.AnyRun .new t s) :
    (s.Blocked → s.tasks = [] ∧ ¬ s.destructor.passedSetEvent ∧
      s.processed = s.accepted) ∧
    (s.accepted = handed t ∧
      s.accepted = s.processed ++ s.worker.inHand ++ s.tasks) ∧
    (s.worker = .exited → s.processed = s.accepted ∧ s.tasks = [] ∧
      ∀ t' s', notifier.AnyRun s t' s' → s'.accepted = s.accepted) := by
  have hok := notifierOk_of_run h notifierOk_new
  refine ⟨fun hblocked => ?_, ⟨(accepted_eq_handed h).1, hok.fifo⟩, fun hexited => ?_⟩
  · refine ⟨?_, fun hpassed => ?_, hok.processed_of_blocked hblocked⟩
    · by_contra hne
      exact hok.not_blocked (.inl hne) hblocked
    · exact hok.not_blocked (.inr hpassed) hblocked
  · obtain ⟨hprocessed, htasks⟩ := hok.processed_of_exited hexited
    have hstop := (hok.drained (by rw [hexited]; rfl)).1
    exact ⟨hprocessed, htasks, fun t' s' h' => (accepted_of_stopping h' hstop).2⟩

/-- The destructor sets its flag while a task is queued: the worker still processes the
task before it leaves, and a later one is refused. -/
theorem notifier_serves_last_task :
    let task : NotifyTask := ⟨1, ascii "TRIGGERED", [], [], []⟩
    ∃ s, notifier.AnyRun .new [.notify task, .destroy, .worker, .worker, .worker,
        .destroy, .worker, .worker, .notify task, .destroy] s ∧
      s.worker = .exited ∧ s.processed = [task] := by
  intro task
  have hrun : notifier.AnyRun .new [.notify task, .destroy, .worker, .worker, .worker,
      .destroy, .worker, .worker, .notify task, .destroy] _ := Machine.run_of_follow rfl
  obtain ⟨hprocessed, -⟩ := (notifier_serves_accepted hrun).2.2 rfl
  exact ⟨_, hrun, rfl, hprocessed⟩

end CloudAlert
