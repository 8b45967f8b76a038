import Galley.Compile.Run

/-!
# Stages of a compilation

What a stage of a compilation does is told by its **story**: the events that are not notes of its
work. Collaborators add notes and change the tree, and nothing else, so a story and the parts of
an attempt beside its tree depend only on what the collaborators return and raise.

`Meets w a Q` says that the work `w`, started on the attempt `a` behind any events, ends with a
result, a story and an attempt that `Q` accepts. Each stage has one lemma, whose hypotheses are
its exits.
-/

namespace Galley

/-- The events that are not notes. -/
def story (events : List Event) : List Event := events.filter fun e => e.note?.isNone

@[simp]
theorem story_nil : story [] = [] := rfl

@[simp]
theorem story_append (xs ys : List Event) : story (xs ++ ys) = story xs ++ story ys :=
  List.filter_append ..

theorem mem_story (e : Event) (events : List Event) :
    e ∈ story events ↔ e ∈ events ∧ e.note? = none := by
  rw [story, List.mem_filter, Option.isNone_iff_eq_none]

private theorem story_map_note (notes : List Note) : story (notes.map Event.note) = [] := by
  simp [story, Event.note?]

private theorem story_singleton {e : Event} (h : e.note? = none) : story [e] = [e] := by
  simp [story, h]

namespace Compilation

variable {α β : Type} {a : Attempt}

/-- Whatever came before, `w` leads from `a` to what `Q` accepts. -/
def Meets (w : Work Event Attempt α) (a : Attempt) (Q : α → List Event → Attempt → Prop) : Prop :=
  ∀ past, Q (w past a).result (story (w past a).events) (w past a).state

/-! ### Rules -/

theorem Meets.imp {w : Work Event Attempt α} {Q R : α → List Event → Attempt → Prop}
    (h : Meets w a Q) (hQR : ∀ x es a', Q x es a' → R x es a') : Meets w a R :=
  fun past => hQR _ _ _ (h past)

theorem meets_pure {x : α} {Q : α → List Event → Attempt → Prop} (h : Q x [] a) :
    Meets (pure x) a Q :=
  fun _ => h

theorem meets_bind {w : Work Event Attempt α} {f : α → Work Event Attempt β}
    {Q : β → List Event → Attempt → Prop}
    (h : Meets w a fun x es a' => Meets (f x) a' fun y es' a'' => Q y (es ++ es') a'') :
    Meets (w >>= f) a Q := by
  intro past
  have hw := h past (past ++ (w past a).events)
  simpa only [Work.bind_apply, story_append] using hw

theorem meets_current {Q : Attempt → List Event → Attempt → Prop} (h : Q a [] a) :
    Meets current a Q :=
  fun _ => h

theorem meets_update {f : Attempt → Attempt} {Q : Unit → List Event → Attempt → Prop}
    (h : Q () [] (f a)) : Meets (update f) a Q :=
  fun _ => h

theorem meets_record {e : Event} {Q : Unit → List Event → Attempt → Prop} (he : e.note? = none)
    (h : Q () [e] a) : Meets (record e) a Q := by
  intro past
  change Q () (story [e]) a
  rwa [story_singleton he]

/-- A chore changes the tree and tells nothing. -/
theorem meets_chore {w : Chore α} {Q : α → List Event → Attempt → Prop}
    (h : ∀ past, Q (w past a.tree).result [] { a with tree := (w past a.tree).state }) :
    Meets (chore w) a Q := by
  intro past
  have hw := h (past.filterMap Event.note?)
  simpa only [chore, Work.within_apply, story_map_note] using hw

theorem meets_log {level : Level} {text : String} {Q : Unit → List Event → Attempt → Prop}
    (h : Q () [] a) : Meets (log level text) a Q :=
  meets_chore fun _ => h

theorem meets_logAll {ms : List Message} {Q : Unit → List Event → Attempt → Prop}
    (h : Q () [] a) : Meets (logAll ms) a Q := by
  induction ms with
  | nil => exact meets_pure h
  | cons m rest ih => exact meets_bind fun _ => ih

theorem meets_displayAll {lines : List ProgressLine} {Q : Unit → List Event → Attempt → Prop}
    (h : Q () (lines.map .shown) a) : Meets (displayAll lines) a Q := by
  -- the lines that are shown already are part of what is accepted
  induction lines generalizing Q with
  | nil => exact meets_pure h
  | cons line rest ih => exact meets_bind (meets_record rfl (ih h))

/-! ### Rules for work that may stop -/

variable {ε : Type}

theorem meets_lift {w : Work Event Attempt α} {Q : Except ε α → List Event → Attempt → Prop}
    (h : Meets w a fun x es a' => Q (.ok x) es a') :
    Meets (liftM w : ExceptT ε (Work Event Attempt) α).run a Q := by
  intro past
  rw [Work.run_liftM_apply]
  exact h past

theorem meets_stage_pure {x : α} {Q : Except ε α → List Event → Attempt → Prop}
    (h : Q (.ok x) [] a) : Meets (pure x : ExceptT ε (Work Event Attempt) α).run a Q :=
  fun _ => h

theorem meets_throw {stop : ε} {Q : Except ε α → List Event → Attempt → Prop}
    (h : Q (.error stop) [] a) : Meets (throw stop : ExceptT ε (Work Event Attempt) α).run a Q :=
  fun _ => h

/-- The second part is reached only if the first one does not stop. -/
theorem meets_stage_bind {w : ExceptT ε (Work Event Attempt) α}
    {f : α → ExceptT ε (Work Event Attempt) β} {Q : Except ε β → List Event → Attempt → Prop}
    (h : Meets w.run a fun r es a' =>
      match r with
      | .ok x => Meets (f x).run a' fun y es' a'' => Q y (es ++ es') a''
      | .error stop => Q (.error stop) es a') :
    Meets (w >>= f).run a Q := by
  intro past
  have hw := h past
  rw [Work.run_bind_apply]
  rcases hr : w.run past a with ⟨stop | x, events, a'⟩
  · simpa only [hr] using hw
  · rw [hr] at hw
    -- the second part is started behind the events of the first
    simpa only [story_append] using hw (past ++ events)

theorem meets_lift_bind {w : Work Event Attempt α} {f : α → ExceptT ε (Work Event Attempt) β}
    {Q : Except ε β → List Event → Attempt → Prop}
    (h : Meets w a fun x es a' => Meets (f x).run a' fun y es' a'' => Q y (es ++ es') a'') :
    Meets ((liftM w : ExceptT ε (Work Event Attempt) α) >>= f).run a Q :=
  meets_stage_bind (meets_lift h)

end Compilation

end Galley
