import Galley.Proofs.Work.Agree

/-!
# What work heeds

Work is free to look at the events before it. It **heeds** no more of them than a view shows if it
does exactly the same behind events that look the same in this view: it gives the same result, adds
the same events and leaves the same state. Programs heed the starts before theirs, and no other
basic piece of work heeds anything; there is one rule for each way to put work together.

Of work that agrees with itself (`Galley.Proofs.Work.Agree`) less is asked, namely that what it
adds looks the same; so work that heeds nothing but starts is discreet (`Chore.discreet_of_heeds`).
-/

namespace Galley

namespace Work

variable {η κ κ' σ ε α β : Type} {view : η → Option κ}

/-- Whether work heeds no more of the events before it than a view shows. -/
def Heeds (view : η → Option κ) (w : Work η σ α) : Prop :=
  ∀ past past', past.filterMap view = past'.filterMap view → w past = w past'

/-- What is heeded in a view is heeded in any view that shows more. -/
theorem Heeds.mono {view' : η → Option κ'} {w : Work η σ α} (h : Heeds view w)
    {f : κ' → Option κ} (hf : ∀ e, (view' e).bind f = view e) : Heeds view' w :=
  fun past past' hp => h past past' (filterMap_congr_of_bind hf hp)

/-- What heeds nothing is the same wherever it is done. -/
theorem Heeds.anywhere {w : Work η σ α} (h : Heeds view w) (hview : ∀ e, view e = none)
    (past past' : List η) : w past = w past' := by
  have hnone (events : List η) : events.filterMap view = [] :=
    List.filterMap_eq_nil_iff.mpr fun e _ => hview e
  exact h past past' (by rw [hnone, hnone])

/-- Work agrees with itself for whoever sees at least what it heeds. -/
theorem Heeds.agree {see : η → Option η} {w : Work η σ α} (h : Heeds view w)
    {f : η → Option κ} (hf : ∀ e, (see e).bind f = view e) (s : σ) :
    Agree see w w s s fun _ _ u u' => u = u' := by
  intro past past' hp
  rw [h past past' (filterMap_congr_of_bind hf hp)]
  exact ⟨rfl, rfl, rfl⟩

/-! ### Rules -/

theorem heeds_pure (x : α) : Heeds view (pure x : Work η σ α) := fun _ _ _ => rfl

theorem heeds_emit (e : η) : Heeds view (emit e : Work η σ Unit) := fun _ _ _ => rfl

theorem heeds_look : Heeds view (look : Work η σ σ) := fun _ _ _ => rfl

theorem heeds_change (f : σ → σ) : Heeds view (change f : Work η σ Unit) := fun _ _ _ => rfl

theorem heeds_bind {w : Work η σ α} {f : α → Work η σ β} (hw : Heeds view w)
    (hf : ∀ x, Heeds view (f x)) : Heeds view (w >>= f) := by
  intro past past' hp
  funext s
  have hpast : (past ++ (w past' s).events).filterMap view =
      (past' ++ (w past' s).events).filterMap view := by
    rw [List.filterMap_append, List.filterMap_append, hp]
  simp only [bind_apply, hw past past' hp, hf _ _ _ hpast]

theorem heeds_stage_pure (x : α) : Heeds view (pure x : ExceptT ε (Work η σ) α).run :=
  fun _ _ _ => rfl

theorem heeds_throw (e : ε) : Heeds view (throw e : ExceptT ε (Work η σ) α).run :=
  fun _ _ _ => rfl

theorem heeds_stage_bind {w : ExceptT ε (Work η σ) α} {f : α → ExceptT ε (Work η σ) β}
    (hw : Heeds view w.run) (hf : ∀ x, Heeds view (f x).run) : Heeds view (w >>= f).run := by
  refine heeds_bind hw fun r => ?_
  cases r with
  | error e => exact heeds_pure _
  | ok x => exact hf x

theorem heeds_lift {w : Work η σ α} (hw : Heeds view w) :
    Heeds view (liftM w : ExceptT ε (Work η σ) α).run :=
  heeds_bind hw fun _ => heeds_pure _

theorem heeds_lift_bind {w : Work η σ α} {f : α → ExceptT ε (Work η σ) β} (hw : Heeds view w)
    (hf : ∀ x, Heeds view (f x).run) :
    Heeds view ((liftM w : ExceptT ε (Work η σ) α) >>= f).run :=
  heeds_stage_bind (heeds_lift hw) hf

theorem heeds_adapt {ε' : Type} (f : ε → ε') {w : ExceptT ε (Work η σ) α} (hw : Heeds view w.run) :
    Heeds view (ExceptT.adapt f w).run :=
  heeds_bind hw fun _ => heeds_pure _

end Work

/-! ### Chores -/

namespace Chore

open Work

variable {κ α : Type} {view : Note → Option κ}

theorem heeds_tree : Heeds view tree := heeds_look

theorem heeds_log (level : Level) (text : String) : Heeds view (log level text) := heeds_emit _

theorem heeds_logWeaving (level : Level) (text : String) : Heeds view (logWeaving level text) :=
  heeds_emit _

/-- What a program does depends on the starts before. -/
theorem heeds_start {ω : Type} (programs : List Start → Start → Tree → Ending ω × Tree)
    (s : Start) : Heeds Note.start? (start programs s) := by
  intro past past' hp
  funext t
  simp only [start, hp]

theorem discreet_of_heeds {w : Chore α} (h : Heeds Note.start? w) : Discreet w := by
  rintro t _ rfl
  exact h.agree Note.start?_seen t

end Chore

end Galley
