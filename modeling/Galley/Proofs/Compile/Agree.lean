import Galley.Proofs.Compile.Attempt
import Galley.Proofs.Work.Agree

/-!
# Stages that agree

Two attempts are **alike** if they differ in their trees alone, which are related. Started on
attempts that are alike, a stage does the same again if its chores do (`Compilation.Respects`):
nothing but a collaborator looks at the tree past the checks, and what a stage logs is not seen.
Work is put together as in `Galley.Proofs.Work.Agree`.
-/

namespace Galley

namespace Event

/-- What an event looks like: a message like nothing, a start like one in an empty tree, and
whatever else like itself. -/
def seen? : Event → Option Event
  | .note n => n.seen?.map .note
  | e => some e

private theorem seen?_eq_self {e : Event} (h : e.note? = none) : e.seen? = some e := by
  cases e with
  | note n => cases h
  | _ => rfl

private theorem seen?_bind_note? (e : Event) : e.seen?.bind note? = e.note?.bind Note.seen? := by
  cases e with
  | note n => cases n <;> rfl
  | _ => rfl

private theorem filterMap_note? (events : List Event) :
    (events.filterMap note?).filterMap Note.seen? =
      (events.filterMap seen?).filterMap note? := by
  simp only [List.filterMap_filterMap, seen?_bind_note?]

private theorem filterMap_seen?_notes (notes : List Note) :
    (notes.map note).filterMap seen? = (notes.filterMap Note.seen?).map note := by
  rw [List.filterMap_map, List.map_filterMap]
  rfl

/-- Whatever can be told from what is seen of one event can be told from what is seen of all. -/
theorem filterMap_congr {β : Type} {f : Event → Option β} (hf : ∀ e, e.seen?.bind f = f e)
    {events events' : List Event} (h : events.filterMap seen? = events'.filterMap seen?) :
    events.filterMap f = events'.filterMap f :=
  Work.filterMap_congr_of_bind hf h

theorem start?_seen (e : Event) : e.seen?.bind start? = e.start? := by
  cases e with
  | note n => cases n <;> rfl
  | _ => rfl

theorem shown?_seen (e : Event) : e.seen?.bind shown? = e.shown? := by
  cases e with
  | note n => cases n <;> rfl
  | _ => rfl

theorem mem_filterMap_seen? {e : Event} (h : e.note? = none) {events : List Event} :
    e ∈ events.filterMap seen? ↔ e ∈ events := by
  rw [List.mem_filterMap]
  constructor
  · rintro ⟨d, hd, he⟩
    cases hn : d.note? with
    | none =>
      rw [seen?_eq_self hn] at he
      exact Option.some.inj he ▸ hd
    | some n =>
      -- a note looks like a note, if like anything
      have hb := seen?_bind_note? d
      rw [he, hn, Option.bind_some, Option.bind_some, h] at hb
      cases d with
      | note m =>
        cases hn
        rw [seen?, ← hb] at he
        cases he
      | _ => cases hn
  · exact fun he => ⟨e, he, seen?_eq_self h⟩

end Event

/-- Whether attempts differ in their trees alone, which are related, and have reached typesetting
or not. -/
structure Attempt.Alike (R : Tree → Tree → Prop) (typesetting : Bool) (a a' : Attempt) : Prop where
  tree : R a.tree a'.tree
  rest : a' = { a with tree := a'.tree }
  typesetting : a.typesetting = typesetting

private theorem Attempt.Alike.withTree {R S : Tree → Tree → Prop} {b : Bool} {a a' : Attempt}
    (h : Alike R b a a') {t u : Tree} (hS : S t u) :
    Alike S b { a with tree := t } { a' with tree := u } :=
  ⟨hS, by rw [h.rest], h.typesetting⟩

namespace Compilation

open Work Attempt

variable {α β ε : Type} {R : Tree → Tree → Prop} {b : Bool} {a a' : Attempt} {c : Compilation}

/-- Two stages agree. -/
abbrev Agree (w w' : Work Event Attempt α) (a a' : Attempt)
    (Q : α → List Event → Attempt → Attempt → Prop) : Prop :=
  Work.Agree Event.seen? w w' a a' Q

/-- Whether a stage that is started on attempts that are alike agrees with itself and leaves such
attempts. -/
abbrev Respects (R : Tree → Tree → Prop) (b : Bool) (w : Work Event Attempt α) : Prop :=
  Work.Respects Event.seen? (Alike R b) w

/-! ### Rules -/

theorem agree_chore {w w' : Chore α} {Q : α → List Event → Attempt → Attempt → Prop}
    (h : Chore.Agree w w' a.tree a'.tree fun x notes t u =>
      Q x (notes.map .note) { a with tree := t } { a' with tree := u }) :
    Compilation.Agree (chore w) (chore w') a a' Q := by
  intro past past' hp
  obtain ⟨hr, he, hq⟩ := h (past.filterMap Event.note?) (past'.filterMap Event.note?)
    (by rw [Event.filterMap_note?, hp, Event.filterMap_note?])
  simp only [chore, within_apply, Event.filterMap_seen?_notes]
  exact ⟨hr, congrArg _ he, hq⟩

theorem agree_chore_alike {S : Tree → Tree → Prop} {w : Chore α} (h : Alike R b a a')
    (hw : Chore.Agree w w a.tree a'.tree fun _ _ t u => S t u) :
    Compilation.Agree (chore w) (chore w) a a' fun _ _ a a' => Alike S b a a' :=
  agree_chore (hw.imp fun _ _ _ _ hS => h.withTree hS)

theorem respects_chore {w : Chore α} (hw : Chore.Respects R w) : Respects R b (chore w) :=
  fun _ _ h => agree_chore_alike h (hw _ _ h.tree)

/-- A change that neither looks at the tree nor touches it. -/
theorem respects_update {f : Attempt → Attempt}
    (hf : ∀ a t, f { a with tree := t } = { f a with tree := t })
    (ht : ∀ a, (f a).typesetting = a.typesetting) : Respects R b (update f) := by
  intro a a' h
  have htree := congrArg Attempt.tree (hf a a.tree)
  have hrest : f a' = { f a with tree := a'.tree } := h.rest ▸ hf a a'.tree
  refine agree_change ⟨?_, ?_, (ht a).trans h.typesetting⟩
  · rw [hrest]
    exact htree.symm ▸ h.tree
  · rw [hrest]

/-- What is done with the attempt may look at it. -/
theorem respects_current_bind {f : Attempt → Work Event Attempt α}
    (hf : ∀ a a', Alike R b a a' →
      Compilation.Agree (f a) (f a') a a' fun _ _ a a' => Alike R b a a') :
    Respects R b (current >>= f) :=
  fun a a' h => agree_look_bind (hf a a' h)

theorem respects_lift_current_bind {f : Attempt → ExceptT ε (Work Event Attempt) α}
    (hf : ∀ a a', Alike R b a a' →
      Compilation.Agree (f a).run (f a').run a a' fun _ _ a a' => Alike R b a a') :
    Respects R b ((liftM (current : Work Event Attempt Attempt) :
      ExceptT ε (Work Event Attempt) Attempt) >>= f).run :=
  fun a a' h => agree_lift_look_bind (hf a a' h)

theorem respects_log (level : Level) (text : String) : Respects R b (log level text) :=
  respects_chore (Chore.respects_log level text)

theorem respects_record (e : Event) : Respects R b (record e) := respects_emit e

/-- Nothing is seen of messages. -/
theorem agree_logAll {ms : List Message} {Q : Unit → List Event → Attempt → Attempt → Prop}
    (h : Q () [] a a') : Compilation.Agree (logAll ms) (logAll ms) a a' Q := by
  induction ms with
  | nil => exact agree_pure h
  | cons m rest ih => exact agree_bind (agree_emit rfl ih)

theorem respects_logAll (ms : List Message) : Respects R b (logAll ms) :=
  fun _ _ h => agree_logAll h

theorem respects_displayAll (lines : List ProgressLine) : Respects R b (displayAll lines) := by
  induction lines with
  | nil => exact respects_pure ()
  | cons line rest ih => exact respects_bind (respects_record _) fun _ => ih

theorem respects_keepLogs : Respects R b keepLogs :=
  respects_update (fun _ _ => rfl) fun _ => rfl

/-- The phase that is left goes into a message only. -/
theorem agree_enter {phase : Phase} {Q : Unit → List Event → Attempt → Attempt → Prop}
    (h : Q () [.entered phase] { a with phase } { a' with phase }) :
    Compilation.Agree (c.enter phase) (c.enter phase) a a' Q :=
  agree_look_bind <| agree_bind <| agree_chore <| Chore.agree_log <| agree_bind <|
    agree_change <| agree_emit rfl h

theorem respects_enter (phase : Phase) : Respects R b (c.enter phase) :=
  fun _ _ h => agree_enter ⟨h.tree, by rw [h.rest], h.typesetting⟩

theorem agree_accept (role : Role) (r : Except Stop α) (h : Alike R b a a') :
    Compilation.Agree (Stage.accept role r).run (Stage.accept role r).run a a'
      fun r' _ a a' => r' = r ∧ Alike R b a a' := by
  cases r with
  | ok x => exact agree_stage_pure ⟨rfl, h⟩
  | error stop => exact agree_lift_bind (agree_emit rfl (agree_throw ⟨rfl, h⟩))

theorem respects_accept (role : Role) (r : Except Stop α) :
    Respects R b (Stage.accept role r).run :=
  fun _ _ h => (agree_accept role r h).imp fun _ _ _ _ ha => ha.2

theorem respects_call (role : Role) {w : ExceptT Stop (Work Note Tree) α}
    (hw : Chore.Respects R w.run) : Respects R b (Stage.call role w).run :=
  respects_lift_bind (respects_chore hw) fun r => respects_accept role r

end Compilation

end Galley
