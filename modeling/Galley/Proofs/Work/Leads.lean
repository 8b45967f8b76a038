import Galley.Program.Start

/-!
# What work leads to

`Leads w past s Q` says that the work `w`, started behind the events `past` and on the state `s`,
ends with a result, events and a state that `Q` accepts. There is one rule for each way to put
work together; a sequence is accepted if its second part, started where the first one ends, brings
the events of both to what is accepted. `Throughout P w` says less, of all starts at once: the
events that `w` adds satisfy `P`. What `Chains` has only to be shown of the parts.
-/

namespace Galley

/-- The starts that notes tell of. -/
def startsOf (notes : List Note) : List Start := notes.filterMap Note.start?

@[simp]
theorem startsOf_nil : startsOf [] = [] := rfl

@[simp]
theorem startsOf_append (xs ys : List Note) : startsOf (xs ++ ys) = startsOf xs ++ startsOf ys :=
  List.filterMap_append ..

@[simp]
theorem startsOf_logged (m : Message) : startsOf [.logged m] = [] := rfl

namespace Work

variable {η σ ε α β : Type} {past : List η} {s : σ}

/-- Behind `past`, `w` leads from `s` to what `Q` accepts. -/
def Leads (w : Work η σ α) (past : List η) (s : σ) (Q : α → List η → σ → Prop) : Prop :=
  Q (w past s).result (w past s).events (w past s).state

theorem Leads.imp {w : Work η σ α} {Q R : α → List η → σ → Prop} (h : Leads w past s Q)
    (hQR : ∀ x es s', Q x es s' → R x es s') : Leads w past s R :=
  hQR _ _ _ h

theorem leads_pure {x : α} {Q : α → List η → σ → Prop} (h : Q x [] s) :
    Leads (pure x : Work η σ α) past s Q :=
  h

theorem leads_bind {w : Work η σ α} {f : α → Work η σ β} {Q : β → List η → σ → Prop}
    (h : Leads w past s fun x es s' =>
      Leads (f x) (past ++ es) s' fun y es' s'' => Q y (es ++ es') s'') :
    Leads (w >>= f) past s Q :=
  h

/-! ### Rules for work that may stop -/

theorem leads_lift {w : Work η σ α} {Q : Except ε α → List η → σ → Prop}
    (h : Leads w past s fun x es s' => Q (.ok x) es s') :
    Leads (liftM w : ExceptT ε (Work η σ) α).run past s Q := by
  rw [Leads, run_liftM_apply]
  exact h

theorem leads_stage_pure {x : α} {Q : Except ε α → List η → σ → Prop} (h : Q (.ok x) [] s) :
    Leads (pure x : ExceptT ε (Work η σ) α).run past s Q :=
  h

theorem leads_throw {e : ε} {Q : Except ε α → List η → σ → Prop} (h : Q (.error e) [] s) :
    Leads (throw e : ExceptT ε (Work η σ) α).run past s Q :=
  h

/-- The second part is reached only if the first one does not stop. -/
theorem leads_stage_bind {w : ExceptT ε (Work η σ) α} {f : α → ExceptT ε (Work η σ) β}
    {Q : Except ε β → List η → σ → Prop}
    (h : Leads w.run past s fun r es s' =>
      match r with
      | .ok x => Leads (f x).run (past ++ es) s' fun y es' s'' => Q y (es ++ es') s''
      | .error e => Q (.error e) es s') :
    Leads (w >>= f).run past s Q := by
  rw [Leads] at h ⊢
  rw [run_bind_apply]
  rcases hr : w.run past s with ⟨e | x, events, s'⟩
  · rwa [hr] at h
  · rw [hr] at h
    exact h

theorem leads_lift_bind {w : Work η σ α} {f : α → ExceptT ε (Work η σ) β}
    {Q : Except ε β → List η → σ → Prop}
    (h : Leads w past s fun x es s' =>
      Leads (f x).run (past ++ es) s' fun y es' s'' => Q y (es ++ es') s'') :
    Leads ((liftM w : ExceptT ε (Work η σ) α) >>= f).run past s Q :=
  leads_stage_bind (leads_lift h)

theorem leads_adapt {ε' : Type} {f : ε → ε'} {w : ExceptT ε (Work η σ) α}
    {Q : Except ε' α → List η → σ → Prop}
    (h : Leads w.run past s fun r es s' => Q (r.mapError f) es s') :
    Leads (ExceptT.adapt f w).run past s Q := by
  have hrun : (ExceptT.adapt f w).run = Except.mapError f <$> w.run := rfl
  rw [Leads, hrun, map_apply]
  exact h

/-! ### What holds between start and end -/

/-- Whether what holds of two parts, the second one behind the first, holds of both together. -/
def Chains (R : List η → σ → List η → σ → Prop) : Prop :=
  ∀ ⦃past xs ys : List η⦄ ⦃s s' s'' : σ⦄,
    R past s xs s' → R (past ++ xs) s' ys s'' → R past s (xs ++ ys) s''

/-- Of the second part it is asked only where the first one ends. -/
theorem Chains.stage_bind {R : List η → σ → List η → σ → Prop} (hR : Chains R)
    {w : ExceptT ε (Work η σ) α} {f : α → ExceptT ε (Work η σ) β}
    (h : Leads w.run past s fun r es s' => R past s es s' ∧ ∀ x, r = .ok x →
      Leads (f x).run (past ++ es) s' fun _ es' s'' => R (past ++ es) s' es' s'') :
    Leads (w >>= f).run past s fun _ es s' => R past s es s' := by
  refine leads_stage_bind (h.imp ?_)
  rintro (e | x) es s' ⟨hw, hf⟩
  · exact hw
  · exact (hf x rfl).imp fun _ _ _ h' => hR hw h'

/-! ### What all events satisfy -/

/-- Whether `P` holds of the events of `w`, wherever it is started. -/
def Throughout (P : List η → Prop) (w : Work η σ α) : Prop := ∀ past s, P (w past s).events

section Throughout

variable {P : List η → Prop}

theorem throughout_bind (happend : ∀ {xs ys}, P xs → P ys → P (xs ++ ys)) {w : Work η σ α}
    {f : α → Work η σ β} (hw : Throughout P w) (hf : ∀ x, Throughout P (f x)) :
    Throughout P (w >>= f) :=
  fun past s => happend (hw past s) (hf _ _ _)

theorem throughout_stage_bind (happend : ∀ {xs ys}, P xs → P ys → P (xs ++ ys))
    {w : ExceptT ε (Work η σ) α} {f : α → ExceptT ε (Work η σ) β} (hw : Throughout P w.run)
    (hf : ∀ x, Throughout P (f x).run) : Throughout P (w >>= f).run := by
  have hchains : Chains fun _ (_ : σ) es _ => P es := fun _ _ _ _ _ _ => happend
  exact fun past s => hchains.stage_bind ⟨hw past s, fun x _ => hf x _ _⟩

theorem throughout_lift {w : Work η σ α} (h : Throughout P w) :
    Throughout P (liftM w : ExceptT ε (Work η σ) α).run := by
  intro past s
  rw [run_liftM_apply]
  exact h past s

end Throughout

/-! ### Rules for chores -/

variable {notes : List Note} {t : Tree}

theorem leads_log {level : Level} {text : String} {Q : Unit → List Note → Tree → Prop}
    (h : Q () [.logged (Message.render level text)] t) : Leads (Chore.log level text) notes t Q :=
  h

theorem leads_logWeaving {level : Level} {text : String} {Q : Unit → List Note → Tree → Prop}
    (h : Q () [.logged (Message.weave level text)] t) :
    Leads (Chore.logWeaving level text) notes t Q :=
  h

theorem leads_tree {Q : Tree → List Note → Tree → Prop} (h : Q t [] t) :
    Leads Chore.tree notes t Q :=
  h

theorem leads_start {ω : Type} {programs : List Start → Start → Tree → Ending ω × Tree}
    {s : Start} {Q : Ending ω → List Note → Tree → Prop}
    (h : Q (programs (startsOf notes) s t).1
      [.started s t (programs (startsOf notes) s t).1.status?]
      (programs (startsOf notes) s t).2) : Leads (Chore.start programs s) notes t Q :=
  h

end Work

end Galley
