import CloudAlert.Program.Basic
import CloudAlert.Program.Machine

/-!
# Nested message loops

The thread of a window handles one message at a time. A handler is not interrupted, except
where it opens a dialog: the dialog has a message loop of its own, which handles further
messages, and these handlers may open dialogs in turn. The innermost dialog is closed
first, and then the handler that opened it goes on.

`MessageLoop.wp` is the logic of handlers for this: a handler has to make an invariant
true wherever it opens a dialog, and after the dialog it can rely on that invariant only.
The invariant may speak of the dialogs that are open. `MessageLoop.keeps` is the rule for
runs.
-/

universe u v

/-- What a handler does: an operation, or a dialog. -/
inductive Effect (Op Dialog : Type u) where
  | op (o : Op)
  | dialog (d : Dialog)

/-- What it gets back; a dialog is closed with a `β`. -/
@[reducible] def Effect.Ans {Op Dialog : Type u} (Ans : Op → Type v) (β : Type v) :
    Effect Op Dialog → Type v
  | .op o => Ans o
  | .dialog _ => β

/-- The code of a handler. -/
abbrev Handling {Op : Type u} (Ans : Op → Type v) (Dialog : Type u) (β α : Type v) :=
  Program (Effect Op Dialog) (Effect.Ans Ans β) α

/-- A thread that handles messages `Msg`. A message can be handled where `take` says so,
and `take` makes of the state what it is when the handler starts. -/
structure MessageLoop {Op : Type u} (Ans : Op → Type) (Dialog : Type u) (β : Type)
    (σ Msg : Type*) where
  exec : (o : Op) → σ → Ans o × σ
  handler : Msg → Handling Ans Dialog β Unit
  take : Msg → List Dialog → σ → Option σ
  closes : Dialog → β → σ → Bool

namespace MessageLoop

variable {Op : Type u} {Ans : Op → Type} {Dialog : Type u} {β α γ : Type} {σ Msg : Type*}

/-- The code of one operation. -/
def perform (o : Op) : Handling Ans Dialog β (Ans o) := .call (.op o) .ret

/-- The code that opens a dialog and waits for its end. -/
def openDialog (d : Dialog) : Handling Ans Dialog β β := .call (.dialog d) .ret

/-! ## Runs -/

/-- A handler that waits for its dialog. -/
structure Frame (Ans : Op → Type) (Dialog : Type u) (β : Type) where
  dialog : Dialog
  rest : β → Handling Ans Dialog β Unit

/-- The state between two actions; the innermost handler comes first. -/
structure Nested (Ans : Op → Type) (Dialog : Type u) (β : Type) (σ : Type*) where
  state : σ
  frames : List (Frame Ans Dialog β)

/-- The dialogs that are open, the innermost first. -/
def Nested.dialogs (s : Nested Ans Dialog β σ) : List Dialog := s.frames.map Frame.dialog

/-- A message is handled, or the innermost dialog is closed. -/
inductive LoopAction (Msg : Type*) (β : Type) where
  | handle (m : Msg)
  | close (r : β)

variable (L : MessageLoop Ans Dialog β σ Msg)

/-- Runs a handler up to its end or up to the first dialog. -/
def enter : Handling Ans Dialog β Unit → σ → List (Frame Ans Dialog β) →
    Nested Ans Dialog β σ
  | .ret _, s, frames => ⟨s, frames⟩
  | .call (.op o) k, s, frames => enter (k (L.exec o s).1) (L.exec o s).2 frames
  | .call (.dialog d) k, s, frames => ⟨s, ⟨d, k⟩ :: frames⟩

/-- The loop as a machine. -/
def machine : Machine (Nested Ans Dialog β σ) (LoopAction Msg β) where
  next s
    | .handle m =>
        (L.take m s.dialogs s.state).map fun s' => L.enter (L.handler m) s' s.frames
    | .close r =>
        match s.frames with
        | f :: frames =>
            if L.closes f.dialog r s.state then
              some (L.enter (f.rest r) s.state frames) else none
        | [] => none

/-! ## The logic of handlers -/

variable (inv : List Dialog → σ → Prop)

/-- From this state, with the dialogs `ds` open, the handler ends in `post`. Wherever it
opens a dialog `inv` holds, and afterwards it relies on `inv`. -/
def wp (ds : List Dialog) (post : α → σ → Prop) : Handling Ans Dialog β α → σ → Prop
  | .ret a, s => post a s
  | .call (.op o) k, s => wp ds post (k (L.exec o s).1) (L.exec o s).2
  | .call (.dialog d) k, s =>
      inv (d :: ds) s ∧ ∀ r s', inv (d :: ds) s' → L.closes d r s' → wp ds post (k r) s'

variable {L inv} {ds : List Dialog} {s : σ}

theorem wp_openDialog (d : Dialog) {post : β → σ → Prop} :
    L.wp inv ds post (openDialog d) s ↔
      inv (d :: ds) s ∧ ∀ r s', inv (d :: ds) s' → L.closes d r s' → post r s' :=
  Iff.rfl

theorem wp_mono {post post' : α → σ → Prop} {p : Handling Ans Dialog β α}
    (h : L.wp inv ds post p s) (hpost : ∀ a s, post a s → post' a s) :
    L.wp inv ds post' p s := by
  induction p generalizing s with
  | ret a => exact hpost a s h
  | call c k ih =>
      cases c with
      | op o => exact ih _ h
      | dialog d => exact ⟨h.1, fun r s' hs hr => ih r (h.2 r s' hs hr)⟩

theorem wp_bind {post : γ → σ → Prop} {p : Handling Ans Dialog β α}
    {f : α → Handling Ans Dialog β γ} :
    L.wp inv ds post (p >>= f) s ↔ L.wp inv ds (fun a => L.wp inv ds post (f a)) p s := by
  induction p generalizing s with
  | ret a => exact Iff.rfl
  | call c k ih =>
      cases c with
      | op o => exact ih _
      | dialog d =>
          exact and_congr_right fun _ => forall₂_congr fun r s' =>
            forall₂_congr fun _ _ => ih r

theorem wp_seq {mid : α → σ → Prop} {post : γ → σ → Prop} {p : Handling Ans Dialog β α}
    {f : α → Handling Ans Dialog β γ} (h : L.wp inv ds mid p s)
    (hf : ∀ a s, mid a s → L.wp inv ds post (f a) s) : L.wp inv ds post (p >>= f) s :=
  wp_bind.mpr (wp_mono h hf)

/-- Two invariants at once. -/
theorem wp_and {inv' : List Dialog → σ → Prop} {post post' : α → σ → Prop}
    {p : Handling Ans Dialog β α} (h : L.wp inv ds post p s)
    (h' : L.wp inv' ds post' p s) :
    L.wp (fun ds s => inv ds s ∧ inv' ds s) ds (fun a s => post a s ∧ post' a s) p s := by
  induction p generalizing s with
  | ret a => exact ⟨h, h'⟩
  | call c k ih =>
      cases c with
      | op o => exact ih _ h h'
      | dialog d =>
          exact ⟨⟨h.1, h'.1⟩,
            fun r s' hs hr => ih r (h.2 r s' hs.1 hr) (h'.2 r s' hs.2 hr)⟩

/-- A handler that opens no dialog runs to its end. -/
theorem enter_of_wp {post : Unit → σ → Prop} {p : Handling Ans Dialog β Unit}
    (h : L.wp (fun _ _ => False) ds post p s) (frames : List (Frame Ans Dialog β)) :
    ∃ s', L.enter p s frames = ⟨s', frames⟩ ∧ post () s' := by
  induction p generalizing s with
  | ret a => exact ⟨s, rfl, h⟩
  | call c k ih =>
      cases c with
      | op o => exact ih _ h
      | dialog d => exact h.1.elim

/-! ## The rule for runs -/

/-- Each handler keeps `inv` wherever its message is handled. -/
def Keeps (L : MessageLoop Ans Dialog β σ Msg) (inv : List Dialog → σ → Prop) : Prop :=
  ∀ m ds s s', inv ds s → L.take m ds s = some s' →
    L.wp inv ds (fun _ => inv ds) (L.handler m) s'

/-- The handlers that wait will keep `inv` once their dialogs are closed. -/
def Waiting (L : MessageLoop Ans Dialog β σ Msg) (inv : List Dialog → σ → Prop) :
    List (Frame Ans Dialog β) → Prop
  | [] => True
  | f :: frames =>
      let ds := frames.map Frame.dialog
      (∀ r s, inv (f.dialog :: ds) s → L.closes f.dialog r s →
        L.wp inv ds (fun _ => inv ds) (f.rest r) s) ∧
      Waiting L inv frames

/-- What a run keeps. -/
structure NestedOk (L : MessageLoop Ans Dialog β σ Msg) (inv : List Dialog → σ → Prop)
    (s : Nested Ans Dialog β σ) : Prop where
  state : inv s.dialogs s.state
  waiting : L.Waiting inv s.frames

theorem enter_ok {frames : List (Frame Ans Dialog β)} {p : Handling Ans Dialog β Unit}
    (hwaiting : L.Waiting inv frames)
    (h : L.wp inv (frames.map Frame.dialog)
      (fun _ => inv (frames.map Frame.dialog)) p s) :
    L.NestedOk inv (L.enter p s frames) := by
  induction p generalizing s with
  | ret a => exact ⟨h, hwaiting⟩
  | call c k ih =>
      cases c with
      | op o => exact ih _ h
      | dialog d => exact ⟨h.1, h.2, hwaiting⟩

/-- Handlers that keep the invariant keep it in every run, however their dialogs nest. -/
theorem keeps (hkeeps : L.Keeps inv)
    {ok : List (LoopAction Msg β) → Nested Ans Dialog β σ → LoopAction Msg β → Prop}
    {s₀ s : Nested Ans Dialog β σ} {t : List (LoopAction Msg β)}
    (h₀ : L.NestedOk inv s₀) (h : L.machine.Run ok s₀ t s) : L.NestedOk inv s := by
  refine h.invariant (fun s a s' hs hnext => ?_) h₀
  cases a with
  | handle m =>
      obtain ⟨s₁, htake, rfl⟩ := Option.map_eq_some_iff.mp hnext
      exact enter_ok hs.waiting (hkeeps m _ _ _ hs.state htake)
  | close r =>
      obtain ⟨state, frames⟩ := s
      cases frames with
      | nil => cases hnext
      | cons f frames =>
          obtain ⟨hcloses, hnext⟩ := Option.ite_none_right_eq_some.mp hnext
          obtain rfl := Option.some.inj hnext
          exact enter_ok hs.waiting.2 (hs.waiting.1 r state hs.state hcloses)

end MessageLoop
