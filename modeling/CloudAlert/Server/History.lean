import Mathlib.Data.List.Induction
import CloudAlert.Server.ClientSession

/-!
# Serial histories

The server as one state machine: an event is a start-up on the stored tables, a
new connection, a command line of an open session, the end of a connection, a
market tick or a timer check, and each event runs to completion before the next
one. `serve` is `none` when the event cannot happen (a line on a socket no
session holds, a new connection under a handle that is in use) or when the
process ends inside it. `Run` hands no empty line to `Dispatch` and none with a
line break; a history may contain them, so it may do more than the server.

The interpretation of the calls is a parameter, so that the same histories can
be run on the server as it is and on a reference server.
-/

namespace CloudAlert

/-- The state between two events. -/
@[ext] structure Server where
  world : World
  sessions : Socket → Option Session

/-- What happens to the server. -/
inductive Event where
  | startUp (marketData : Bool)
  | connect (sock : Socket)
  | line (sock : Socket) (line : Bytes)
  | disconnect (sock : Socket)
  | tick (contract : Text) (lastPrice : ℚ)
  | timerCheck

/-- A new process on the stored tables, before `AlertEngine` is constructed. -/
def World.fresh (db : AlertDB) (marketData : Bool) (clock : ℕ → LocalTime) : World where
  db := db
  priceAlertCache := fun _ => none
  lastPrices := fun _ => none
  userSockets := fun _ => none
  tasks := []
  marketData := marketData
  subscribed := []
  clock := clock

/-- The machine before its first start-up. -/
def Server.off (db : AlertDB) (clock : ℕ → LocalTime) : Server :=
  ⟨World.fresh db false clock, fun _ => none⟩

section

variable (exec : (c : Call) → World → c.Ans × World)

/-- One event. -/
def serve (s : Server) : Event → Option Server
  | .startUp marketData =>
      let w := World.fresh s.world.db marketData s.world.clock
      some ⟨(Program.run exec refreshPriceAlertCache w).2, fun _ => none⟩
  | .connect sock =>
      match s.sessions sock with
      | none => some { s with
          sessions := Function.update s.sessions sock (some (Session.new sock)) }
      | some _ => none
  | .line sock line =>
      match s.sessions sock with
      | none => none
      | some self =>
          let out := Program.run exec (dispatch self line) s.world
          if out.1.2.ended then none
          else some ⟨out.2, Function.update s.sessions sock (some out.1.1)⟩
  | .disconnect sock =>
      match s.sessions sock with
      | none => none
      | some self => some ⟨(Program.run exec (endSession self) s.world).2,
          Function.update s.sessions sock none⟩
  | .tick contract lastPrice =>
      let out := Program.run exec (checkPriceAlert contract lastPrice) s.world
      if out.1 then some { s with world := out.2 } else none
  | .timerCheck =>
      let out := Program.run exec checkTimeAlerts s.world
      if out.1 then some { s with world := out.2 } else none

/-- A history: its events in order. -/
def serveAll (s : Server) : List Event → Option Server
  | [] => some s
  | e :: es => (serve exec s e).bind fun s' => serveAll s' es

/-- The reply of the session on `sock` to a line. -/
def Server.reply (s : Server) (sock : Socket) (line : Bytes) : Option Reply :=
  (s.sessions sock).map fun self => (Program.run exec (dispatch self line) s.world).1.2

/-- What an event can do. -/
inductive ServeStep (s : Server) : Event → Server → Prop where
  | startUp (marketData : Bool) :
      ServeStep s (.startUp marketData) ⟨(Program.run exec refreshPriceAlertCache
        (World.fresh s.world.db marketData s.world.clock)).2, fun _ => none⟩
  | connect (sock : Socket) (hfree : s.sessions sock = none) :
      ServeStep s (.connect sock) { s with
        sessions := Function.update s.sessions sock (some (Session.new sock)) }
  | line (sock : Socket) (line : Bytes) (self : Session)
      (hself : s.sessions sock = some self) :
      ServeStep s (.line sock line) ⟨(Program.run exec (dispatch self line) s.world).2,
        Function.update s.sessions sock
          (some (Program.run exec (dispatch self line) s.world).1.1)⟩
  | disconnect (sock : Socket) (self : Session) (hself : s.sessions sock = some self) :
      ServeStep s (.disconnect sock) ⟨(Program.run exec (endSession self) s.world).2,
        Function.update s.sessions sock none⟩
  | tick (contract : Text) (lastPrice : ℚ) {w : World}
      (hrun : Program.run exec (checkPriceAlert contract lastPrice) s.world = (true, w)) :
      ServeStep s (.tick contract lastPrice) { s with world := w }
  | timerCheck {w : World} (hrun : Program.run exec checkTimeAlerts s.world = (true, w)) :
      ServeStep s .timerCheck { s with world := w }

variable {exec}

theorem step_of_serve {s s' : Server} {e : Event} (h : serve exec s e = some s') :
    ServeStep exec s e s' := by
  cases e with
  | startUp marketData =>
      obtain rfl := Option.some.inj h
      exact .startUp marketData
  | connect sock =>
      simp only [serve] at h
      split at h
      · rename_i hfree
        obtain rfl := Option.some.inj h
        exact .connect sock hfree
      · cases h
  | line sock line =>
      simp only [serve] at h
      split at h
      · cases h
      · rename_i self hself
        split at h
        · cases h
        · obtain rfl := Option.some.inj h
          exact .line sock line self hself
  | disconnect sock =>
      simp only [serve] at h
      split at h
      · cases h
      · rename_i self hself
        obtain rfl := Option.some.inj h
        exact .disconnect sock self hself
  | tick contract lastPrice =>
      simp only [serve] at h
      split at h
      · rename_i hdone
        obtain rfl := Option.some.inj h
        exact .tick contract lastPrice (Prod.ext hdone rfl)
      · cases h
  | timerCheck =>
      simp only [serve] at h
      split at h
      · rename_i hdone
        obtain rfl := Option.some.inj h
        exact .timerCheck (Prod.ext hdone rfl)
      · cases h

theorem serveAll_append (s : Server) (es es' : List Event) :
    serveAll exec s (es ++ es') =
      (serveAll exec s es).bind fun s' => serveAll exec s' es' := by
  induction es generalizing s with
  | nil => rfl
  | cons e es ih =>
      simp only [List.cons_append, serveAll]
      cases serve exec s e with
      | none => rfl
      | some s' => exact ih s'

/-- The invariant rule for histories. -/
theorem serveAll_invariant {inv : Server → Prop}
    (hstep : ∀ s e s', inv s → serve exec s e = some s' → inv s') {s s' : Server}
    {es : List Event} (hs : inv s) (h : serveAll exec s es = some s') : inv s' := by
  induction es generalizing s with
  | nil => exact Option.some.inj h ▸ hs
  | cons e es ih =>
      obtain ⟨s₁, h₁, h₂⟩ := Option.bind_eq_some_iff.mp h
      exact ih (hstep s e s₁ hs h₁) h₂

/-- The invariant rule for histories whose events meet a condition. -/
theorem serveAll_invariant_if {inv : Server → Prop} {meets : Server → Event → Prop}
    (hstep : ∀ s e s', inv s → meets s e → serve exec s e = some s' → inv s')
    {s₀ : Server} (hs₀ : inv s₀) {history : List Event}
    (hmeets : ∀ es e es' s, history = es ++ e :: es' → serveAll exec s₀ es = some s →
      meets s e) (es : List Event) :
    ∀ es' s, history = es ++ es' → serveAll exec s₀ es = some s → inv s := by
  induction es using List.reverseRecOn with
  | nil =>
      intro es' s _ hs
      exact Option.some.inj hs ▸ hs₀
  | append_singleton es e ih =>
      intro es' s' hhist hs'
      rw [serveAll_append, Option.bind_eq_some_iff] at hs'
      obtain ⟨s, hs, hserve⟩ := hs'
      have hserve : serve exec s e = some s' := by simpa [serveAll] using hserve
      have hhist' : history = es ++ e :: es' := by simp [hhist]
      exact hstep s e s' (ih (e :: es') s hhist' hs) (hmeets es e es' s hhist' hs) hserve

/-- If one event ends `P` exactly when it is in `bad`, then `P` holds at every point of a
history exactly if no event of the history is in `bad`. -/
theorem always_iff {inv P : Server → Prop} {bad : Server → Event → Prop} {s₀ : Server}
    (hinv : inv s₀) (hkeep : ∀ s e s', inv s → serve exec s e = some s' → inv s')
    (h₀ : P s₀)
    (hstep : ∀ s e s', inv s → P s → serve exec s e = some s' → (P s' ↔ ¬ bad s e))
    (history : List Event) :
    (∀ es es' s, history = es ++ es' → serveAll exec s₀ es = some s → P s) ↔
      ∀ es e es' s, history = es ++ e :: es' → serveAll exec s₀ es = some s →
        (serve exec s e).isSome → ¬ bad s e := by
  have hreach : ∀ es s, serveAll exec s₀ es = some s → inv s := fun es s hs =>
    serveAll_invariant hkeep hinv hs
  constructor
  · rintro hall es e es' s rfl hs hserve
    obtain ⟨s', hs'⟩ := Option.isSome_iff_exists.mp hserve
    have hP : P s := hall es (e :: es') s rfl hs
    refine (hstep s e s' (hreach es s hs) hP hs').mp (hall (es ++ [e]) es' s' ?_ ?_)
    · simp
    · rw [serveAll_append, hs]
      simp [serveAll, hs']
  · intro hall es es' s hhist hs
    have hboth : ∀ s e s', (inv s ∧ P s) → ((serve exec s e).isSome → ¬ bad s e) →
        serve exec s e = some s' → inv s' ∧ P s' := by
      rintro s e s' ⟨hs, hP⟩ hgood hserve
      refine ⟨hkeep s e s' hs hserve, (hstep s e s' hs hP hserve).mpr ?_⟩
      exact hgood (Option.isSome_iff_exists.mpr ⟨s', hserve⟩)
    exact (serveAll_invariant_if hboth ⟨hinv, h₀⟩ hall es es' s hhist hs).2

/-- What every call keeps of the tables, an event keeps. -/
theorem serve_db_invariant {inv : AlertDB → Prop}
    (hcall : ∀ c w, inv w.db → inv (exec c w).2.db) {s s' : Server} {e : Event}
    (hs : inv s.world.db) (h : serve exec s e = some s') : inv s'.world.db := by
  have hrun : ∀ {α : Type} (p : Action α) (w : World), inv w.db →
      inv (Program.run exec p w).2.db := fun p w hw =>
    Program.run_invariant exec (fun w => inv w.db) hcall p hw
  cases step_of_serve h with
  | startUp => exact hrun _ _ hs
  | connect => exact hs
  | line => exact hrun _ _ hs
  | disconnect => exact hrun _ _ hs
  | tick contract lastPrice hcheck =>
      have hkept := hrun (checkPriceAlert contract lastPrice) s.world hs
      rwa [hcheck] at hkept
  | timerCheck hcheck =>
      have hkept := hrun checkTimeAlerts s.world hs
      rwa [hcheck] at hkept

end

/-- The states that histories lead to, from any stored tables. -/
def Reachable (s : Server) : Prop :=
  ∃ db clock history, serveAll exec (.off db clock) history = some s

end CloudAlert
