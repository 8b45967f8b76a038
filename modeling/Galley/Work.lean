/-!
# Work

A piece of **work** looks at the events before it and at the state, and leaves a result, the
events that it adds and a new state. It cannot take back an event, so the events of a run are a
history: what happened first stands first.

Work that may stop early is `ExceptT ε (Work η σ)`: its events and its state are kept when it
stops. `Work.within` does work on a part of the state whose events are a kind of the events here.
-/

namespace Galley

/-- What a piece of work leaves. -/
structure Done (η σ α : Type) where
  result : α
  events : List η
  state : σ

/-- A piece of work with events `η` on a state `σ`. -/
def Work (η σ α : Type) : Type := List η → σ → Done η σ α

namespace Work

variable {η σ η' σ' α β : Type}

/-- Does one piece of work after the other. -/
protected def bind (w : Work η σ α) (f : α → Work η σ β) : Work η σ β := fun past s =>
  let first := w past s
  let second := f first.result (past ++ first.events) first.state
  ⟨second.result, first.events ++ second.events, second.state⟩

instance : Monad (Work η σ) where
  pure a := fun _ s => ⟨a, [], s⟩
  bind := Work.bind

/-- Does a piece of work with nothing before it. -/
def run (w : Work η σ α) (s : σ) : Done η σ α := w [] s

@[simp]
theorem pure_apply (a : α) (past : List η) (s : σ) :
    (pure a : Work η σ α) past s = ⟨a, [], s⟩ := rfl

theorem bind_apply (w : Work η σ α) (f : α → Work η σ β) (past : List η) (s : σ) :
    (w >>= f) past s =
      let first := w past s
      let second := f first.result (past ++ first.events) first.state
      ⟨second.result, first.events ++ second.events, second.state⟩ := rfl

instance : LawfulMonad (Work η σ) :=
  LawfulMonad.mk' (Work η σ)
    (fun w => by
      funext past s
      change (⟨(w past s).result, (w past s).events ++ [], (w past s).state⟩ : Done η σ _) = _
      rw [List.append_nil])
    (fun a f => by
      funext past s
      change (⟨_, [] ++ _, _⟩ : Done η σ _) = _
      simp)
    (fun w f g => by
      funext past s
      simp only [bind_apply, List.append_assoc])

@[simp]
theorem map_apply (f : α → β) (w : Work η σ α) (past : List η) (s : σ) :
    (f <$> w) past s = ⟨f (w past s).result, (w past s).events, (w past s).state⟩ := by
  change (⟨f (w past s).result, (w past s).events ++ [], (w past s).state⟩ : Done η σ β) = _
  rw [List.append_nil]

/-! ### Work that may stop -/

@[simp]
theorem run_pure_apply {ε : Type} (a : α) (past : List η) (s : σ) :
    (pure a : ExceptT ε (Work η σ) α).run past s = ⟨.ok a, [], s⟩ := rfl

@[simp]
theorem run_throw_apply {ε : Type} (e : ε) (past : List η) (s : σ) :
    (throw e : ExceptT ε (Work η σ) α).run past s = ⟨.error e, [], s⟩ := rfl

@[simp]
theorem run_liftM_apply {ε : Type} (w : Work η σ α) (past : List η) (s : σ) :
    (liftM w : ExceptT ε (Work η σ) α).run past s =
      ⟨.ok (w past s).result, (w past s).events, (w past s).state⟩ :=
  map_apply Except.ok w past s

/-- The second piece is done only if the first one does not stop. -/
theorem run_bind_apply {ε : Type} (w : ExceptT ε (Work η σ) α)
    (f : α → ExceptT ε (Work η σ) β) (past : List η) (s : σ) :
    (w >>= f).run past s =
      match w.run past s with
      | ⟨.ok a, events, s'⟩ =>
        let second := (f a).run (past ++ events) s'
        ⟨second.result, events ++ second.events, second.state⟩
      | ⟨.error e, events, s'⟩ => ⟨.error e, events, s'⟩ := by
  have h : (w >>= f).run past s = Work.bind w.run (ExceptT.bindCont f) past s := rfl
  rw [h, Work.bind]
  rcases w.run past s with ⟨_ | a, events, s'⟩
  · simp only [ExceptT.bindCont, pure_apply, List.append_nil]
  · rfl

/-! ### The basic pieces -/

/-- The events so far. -/
def past : Work η σ (List η) := fun past s => ⟨past, [], s⟩

/-- Adds an event. -/
def emit (event : η) : Work η σ Unit := fun _ s => ⟨(), [event], s⟩

/-- The state. -/
def look : Work η σ σ := fun _ s => ⟨s, [], s⟩

/-- Changes the state. -/
def change (f : σ → σ) : Work η σ Unit := fun _ s => ⟨(), [], f s⟩

/-- Does work on a part of the state: `see` and `wrap` relate the events there to the events
here, `get` and `set` the states. -/
def within (see : η → Option η') (wrap : η' → η) (get : σ → σ') (set : σ' → σ → σ)
    (w : Work η' σ' α) : Work η σ α := fun past s =>
  let d := w (past.filterMap see) (get s)
  ⟨d.result, d.events.map wrap, set d.state s⟩

@[simp]
theorem past_apply (past : List η) (s : σ) : (Work.past : Work η σ _) past s = ⟨past, [], s⟩ := rfl

@[simp]
theorem emit_apply (event : η) (past : List η) (s : σ) :
    emit event past s = ⟨(), [event], s⟩ := rfl

@[simp]
theorem look_apply (past : List η) (s : σ) : (look : Work η σ σ) past s = ⟨s, [], s⟩ := rfl

@[simp]
theorem change_apply (f : σ → σ) (past : List η) (s : σ) :
    (change f : Work η σ Unit) past s = ⟨(), [], f s⟩ := rfl

@[simp]
theorem within_apply (see : η → Option η') (wrap : η' → η) (get : σ → σ') (set : σ' → σ → σ)
    (w : Work η' σ' α) (past : List η) (s : σ) :
    within see wrap get set w past s =
      let d := w (past.filterMap see) (get s)
      ⟨d.result, d.events.map wrap, set d.state s⟩ := rfl

end Work

end Galley
