import Galley.Proofs.Work.Leads

/-!
# Work that agrees

Two pieces of work **agree** if nobody can tell them apart who only sees a part of what happens:
behind events that look the same they give the same result and events that look the same again.
`Agree see w w' s s' Q` says so of `w` started on the state `s` and `w'` started on `s'`, `see`
being what an event looks like; `Q` accepts the result, what is seen, and the two states that are
left. There is one rule for each way to put work together.

Of the notes on a tree, messages are not seen at all, and a start is seen without the tree that it
found (`Note.seen?`). Programs see no more than that, so on one tree they agree with themselves.
-/

namespace Galley

namespace Work

/-- What one view shows can be told from a view that shows more. -/
theorem filterMap_congr_of_bind {η κ κ' : Type} {view : η → Option κ} {view' : η → Option κ'}
    {f : κ' → Option κ} (hf : ∀ e, (view' e).bind f = view e) {events events' : List η}
    (h : events.filterMap view' = events'.filterMap view') :
    events.filterMap view = events'.filterMap view := by
  have hall : ∀ es : List η, (es.filterMap view').filterMap f = es.filterMap view := by
    intro es
    simp only [List.filterMap_filterMap, hf]
  rw [← hall, h, hall]

variable {η σ ε α β : Type} {see : η → Option η} {s s' : σ}

/-- Behind events that look the same, `w` on `s` and `w'` on `s'` give the same result and events
that look the same, and `Q` accepts how they end. -/
def Agree (see : η → Option η) (w w' : Work η σ α) (s s' : σ) (Q : α → List η → σ → σ → Prop) :
    Prop :=
  ∀ past past', past.filterMap see = past'.filterMap see →
    (w past s).result = (w' past' s').result ∧
      (w past s).events.filterMap see = (w' past' s').events.filterMap see ∧
        Q (w past s).result ((w past s).events.filterMap see) (w past s).state (w' past' s').state

theorem Agree.imp {w w' : Work η σ α} {Q R : α → List η → σ → σ → Prop}
    (h : Agree see w w' s s' Q) (hQR : ∀ x es u u', Q x es u u' → R x es u u') :
    Agree see w w' s s' R := by
  intro past past' hp
  obtain ⟨hr, he, hq⟩ := h past past' hp
  exact ⟨hr, he, hQR _ _ _ _ hq⟩

theorem agree_pure {x : α} {Q : α → List η → σ → σ → Prop} (h : Q x [] s s') :
    Agree see (pure x) (pure x) s s' Q :=
  fun _ _ _ => ⟨rfl, rfl, h⟩

theorem agree_bind {w w' : Work η σ α} {f f' : α → Work η σ β} {Q : β → List η → σ → σ → Prop}
    (h : Agree see w w' s s' fun x es u u' =>
      Agree see (f x) (f' x) u u' fun y es' v v' => Q y (es ++ es') v v') :
    Agree see (w >>= f) (w' >>= f') s s' Q := by
  intro past past' hp
  obtain ⟨hr, he, hq⟩ := h past past' hp
  have hpast : (past ++ (w past s).events).filterMap see =
      (past' ++ (w' past' s').events).filterMap see := by
    rw [List.filterMap_append, List.filterMap_append, hp, he]
  obtain ⟨hr', he', hq'⟩ := hq _ _ hpast
  simp only [bind_apply, List.filterMap_append]
  rw [← hr]
  exact ⟨hr', by rw [he, he'], hq'⟩

theorem agree_emit {e e' : η} {Q : Unit → List η → σ → σ → Prop} (he : see e = see e')
    (h : Q () (see e).toList s s') : Agree see (emit e) (emit e') s s' Q := by
  have hlist : ∀ d : η, [d].filterMap see = (see d).toList := by
    intro d
    cases hd : see d <;> simp [hd]
  intro past past' _
  simp only [emit_apply, hlist, ← he]
  exact ⟨trivial, trivial, h⟩

theorem agree_change {f f' : σ → σ} {Q : Unit → List η → σ → σ → Prop}
    (h : Q () [] (f s) (f' s')) : Agree see (change f) (change f') s s' Q :=
  fun _ _ _ => ⟨rfl, rfl, h⟩

/-- What is done with the state may depend on the state. -/
theorem agree_look_bind {f f' : σ → Work η σ α} {Q : α → List η → σ → σ → Prop}
    (h : Agree see (f s) (f' s') s s' Q) : Agree see (look >>= f) (look >>= f') s s' Q := by
  intro past past' hp
  have hf := h past past' hp
  simpa only [bind_apply, look_apply, List.append_nil, List.nil_append] using hf

/-! ### Rules for work that may stop -/

private theorem agree_lift {w w' : Work η σ α} {Q : Except ε α → List η → σ → σ → Prop}
    (h : Agree see w w' s s' fun x es u u' => Q (.ok x) es u u') :
    Agree see (liftM w : ExceptT ε (Work η σ) α).run (liftM w' : ExceptT ε (Work η σ) α).run
      s s' Q := by
  intro past past' hp
  obtain ⟨hr, he, hq⟩ := h past past' hp
  rw [run_liftM_apply, run_liftM_apply]
  exact ⟨congrArg Except.ok hr, he, hq⟩

theorem agree_stage_pure {x : α} {Q : Except ε α → List η → σ → σ → Prop}
    (h : Q (.ok x) [] s s') :
    Agree see (pure x : ExceptT ε (Work η σ) α).run (pure x : ExceptT ε (Work η σ) α).run s s' Q :=
  fun _ _ _ => ⟨rfl, rfl, h⟩

theorem agree_throw {stop : ε} {Q : Except ε α → List η → σ → σ → Prop}
    (h : Q (.error stop) [] s s') :
    Agree see (throw stop : ExceptT ε (Work η σ) α).run
      (throw stop : ExceptT ε (Work η σ) α).run s s' Q :=
  fun _ _ _ => ⟨rfl, rfl, h⟩

/-- The second parts are reached only if the first ones do not stop. -/
theorem agree_stage_bind {w w' : ExceptT ε (Work η σ) α} {f f' : α → ExceptT ε (Work η σ) β}
    {Q : Except ε β → List η → σ → σ → Prop}
    (h : Agree see w.run w'.run s s' fun r es u u' =>
      match r with
      | .ok x => Agree see (f x).run (f' x).run u u' fun y es' v v' => Q y (es ++ es') v v'
      | .error stop => Q (.error stop) es u u') :
    Agree see (w >>= f).run (w' >>= f').run s s' Q := by
  intro past past' hp
  obtain ⟨hr, he, hq⟩ := h past past' hp
  rw [run_bind_apply, run_bind_apply]
  rcases hw : w.run past s with ⟨stop | x, events, u⟩ <;>
    rcases hw' : w'.run past' s' with ⟨r, events', u'⟩ <;>
    rw [hw, hw'] at hr he hq <;> cases hr
  · exact ⟨rfl, he, hq⟩
  · have hpast : (past ++ events).filterMap see = (past' ++ events').filterMap see := by
      rw [List.filterMap_append, List.filterMap_append, hp, he]
    obtain ⟨hr', he', hq'⟩ := hq _ _ hpast
    simp only [List.filterMap_append]
    exact ⟨hr', by rw [he, he'], hq'⟩

/-- First parts whose results differ, but not what is seen of them, with second parts that agree
whatever the results. -/
theorem agree_stage_bind_of_leads {w w' : ExceptT ε (Work η σ) α}
    {f f' : α → ExceptT ε (Work η σ) β} {Q : Except ε β → List η → σ → σ → Prop} {seen : List η}
    {u u' : σ}
    (hw : ∀ past, Leads w.run past s fun r es v =>
      (∃ x, r = .ok x) ∧ es.filterMap see = seen ∧ v = u)
    (hw' : ∀ past, Leads w'.run past s' fun r es v =>
      (∃ x, r = .ok x) ∧ es.filterMap see = seen ∧ v = u')
    (hf : ∀ x x', Agree see (f x).run (f' x').run u u' fun y es v v' => Q y (seen ++ es) v v') :
    Agree see (w >>= f).run (w' >>= f').run s s' Q := by
  intro past past' hp
  have hd := hw past
  have hd' := hw' past'
  rw [Leads] at hd hd'
  rw [run_bind_apply, run_bind_apply]
  revert hd hd'
  rcases w.run past s with ⟨r, events, v⟩
  rcases w'.run past' s' with ⟨r', events', v'⟩
  rintro ⟨⟨x, rfl⟩, he, rfl⟩ ⟨⟨x', rfl⟩, he', rfl⟩
  have hpast : (past ++ events).filterMap see = (past' ++ events').filterMap see := by
    rw [List.filterMap_append, List.filterMap_append, hp, he, he']
  obtain ⟨hr, hes, hq⟩ := hf x x' _ _ hpast
  simp only [List.filterMap_append, he, he']
  exact ⟨hr, congrArg _ hes, hq⟩

theorem agree_lift_bind {w w' : Work η σ α} {f f' : α → ExceptT ε (Work η σ) β}
    {Q : Except ε β → List η → σ → σ → Prop}
    (h : Agree see w w' s s' fun x es u u' =>
      Agree see (f x).run (f' x).run u u' fun y es' v v' => Q y (es ++ es') v v') :
    Agree see ((liftM w : ExceptT ε (Work η σ) α) >>= f).run
      ((liftM w' : ExceptT ε (Work η σ) α) >>= f').run s s' Q :=
  agree_stage_bind (agree_lift h)

theorem agree_lift_look_bind {f f' : σ → ExceptT ε (Work η σ) α}
    {Q : Except ε α → List η → σ → σ → Prop}
    (h : Agree see (f s).run (f' s').run s s' Q) :
    Agree see ((liftM (look : Work η σ σ) : ExceptT ε (Work η σ) σ) >>= f).run
      ((liftM (look : Work η σ σ) : ExceptT ε (Work η σ) σ) >>= f').run s s' Q :=
  agree_look_bind h

private theorem agree_adapt {ε' : Type} {f : ε → ε'} {w w' : ExceptT ε (Work η σ) α}
    {Q : Except ε' α → List η → σ → σ → Prop}
    (h : Agree see w.run w'.run s s' fun r es u u' => Q (r.mapError f) es u u') :
    Agree see (ExceptT.adapt f w).run (ExceptT.adapt f w').run s s' Q := by
  intro past past' hp
  obtain ⟨hr, he, hq⟩ := h past past' hp
  have hrun : ∀ v : ExceptT ε (Work η σ) α,
      (ExceptT.adapt f v).run = Except.mapError f <$> v.run := fun _ => rfl
  rw [hrun, hrun, map_apply, map_apply]
  exact ⟨congrArg (Except.mapError f) hr, he, hq⟩

/-! ### Work that respects a relation -/

/-- Whether work that is started on related states agrees with itself and leaves related states. -/
def Respects (see : η → Option η) (R : σ → σ → Prop) (w : Work η σ α) : Prop :=
  ∀ s s', R s s' → Agree see w w s s' fun _ _ u u' => R u u'

variable {R : σ → σ → Prop}

theorem respects_pure (x : α) : Respects see R (pure x) := fun _ _ h => agree_pure h

theorem respects_bind {w : Work η σ α} {f : α → Work η σ β} (hw : Respects see R w)
    (hf : ∀ x, Respects see R (f x)) : Respects see R (w >>= f) :=
  fun s s' h => agree_bind ((hw s s' h).imp fun x _ u u' hu => hf x u u' hu)

theorem respects_emit (e : η) : Respects see R (emit e) :=
  fun _ _ h => agree_emit rfl h

theorem respects_stage_pure (x : α) :
    Respects see R (pure x : ExceptT ε (Work η σ) α).run := fun _ _ h => agree_stage_pure h

theorem respects_throw (stop : ε) :
    Respects see R (throw stop : ExceptT ε (Work η σ) α).run := fun _ _ h => agree_throw h

theorem respects_stage_bind {w : ExceptT ε (Work η σ) α} {f : α → ExceptT ε (Work η σ) β}
    (hw : Respects see R w.run) (hf : ∀ x, Respects see R (f x).run) :
    Respects see R (w >>= f).run := by
  intro s s' h
  refine agree_stage_bind ((hw s s' h).imp ?_)
  rintro (stop | x) es u u' hu
  · exact hu
  · exact hf x u u' hu

theorem respects_lift {w : Work η σ α} (hw : Respects see R w) :
    Respects see R (liftM w : ExceptT ε (Work η σ) α).run :=
  fun s s' h => agree_lift (hw s s' h)

theorem respects_lift_bind {w : Work η σ α} {f : α → ExceptT ε (Work η σ) β}
    (hw : Respects see R w) (hf : ∀ x, Respects see R (f x).run) :
    Respects see R ((liftM w : ExceptT ε (Work η σ) α) >>= f).run :=
  respects_stage_bind (respects_lift hw) hf

theorem respects_adapt {ε' : Type} (f : ε → ε') {w : ExceptT ε (Work η σ) α}
    (hw : Respects see R w.run) : Respects see R (ExceptT.adapt f w).run :=
  fun s s' h => agree_adapt (hw s s' h)

end Work

/-! ### Chores -/

/-- What a note looks like: a message like nothing, a start like one in an empty tree. -/
def Note.seen? : Note → Option Note
  | .logged _ => none
  | .started s _ status => some (.started s ∅ status)

theorem Note.start?_seen (n : Note) : n.seen?.bind Note.start? = n.start? := by
  cases n <;> rfl

/-- The starts can be told from what is seen. -/
theorem startsOf_seen (notes : List Note) :
    startsOf (notes.filterMap Note.seen?) = startsOf notes := by
  rw [startsOf, startsOf, List.filterMap_filterMap]
  exact congrArg (notes.filterMap ·) (funext Note.start?_seen)

namespace Chore

open Work

variable {t u : Tree}

/-- Two chores agree. -/
abbrev Agree {α : Type} (w w' : Chore α) (t u : Tree)
    (Q : α → List Note → Tree → Tree → Prop) : Prop :=
  Work.Agree Note.seen? w w' t u Q

theorem agree_log {level level' : Level} {text text' : String}
    {Q : Unit → List Note → Tree → Tree → Prop} (h : Q () [] t u) :
    Chore.Agree (log level text) (log level' text') t u Q :=
  agree_emit rfl h

theorem agree_logWeaving {level level' : Level} {text text' : String}
    {Q : Unit → List Note → Tree → Tree → Prop} (h : Q () [] t u) :
    Chore.Agree (logWeaving level text) (logWeaving level' text') t u Q :=
  agree_emit rfl h

/-- Programs that end alike agree, and the trees they leave are accepted. -/
theorem agree_start {ω : Type} {programs : List Start → Start → Tree → Ending ω × Tree}
    {s : Start} {Q : Ending ω → List Note → Tree → Tree → Prop}
    (h : ∀ starts, (programs starts s t).1 = (programs starts s u).1 ∧
      Q (programs starts s t).1 [.started s ∅ (programs starts s t).1.status?]
        (programs starts s t).2 (programs starts s u).2) :
    Chore.Agree (start programs s) (start programs s) t u Q := by
  intro past past' hp
  have hstarts : past.filterMap Note.start? = past'.filterMap Note.start? :=
    filterMap_congr_of_bind Note.start?_seen hp
  obtain ⟨he, hq⟩ := h (past'.filterMap Note.start?)
  simp only [start, hstarts]
  refine ⟨he, ?_, hq⟩
  simp [Note.seen?, he]

/-! ### Chores that respect a relation of trees -/

/-- Whether a chore that is started on related trees agrees with itself and leaves related
trees. -/
abbrev Respects {α : Type} (R : Tree → Tree → Prop) (w : Chore α) : Prop :=
  Work.Respects Note.seen? R w

/-- Whether messages and the trees of earlier starts make no difference to a chore. -/
abbrev Discreet {α : Type} (w : Chore α) : Prop := Respects Eq w

variable {R : Tree → Tree → Prop}

theorem respects_log (level : Level) (text : String) : Respects R (log level text) :=
  fun _ _ h => agree_log h

theorem discreet_tree : Discreet tree := by
  rintro t _ rfl
  exact fun _ _ _ => ⟨rfl, rfl, rfl⟩

theorem respects_start {ω : Type} {programs : List Start → Start → Tree → Ending ω × Tree}
    {s : Start} (h : ∀ starts t u, R t u → (programs starts s t).1 = (programs starts s u).1 ∧
      R (programs starts s t).2 (programs starts s u).2) : Respects R (start programs s) :=
  fun t u htu => agree_start fun starts => h starts t u htu

end Chore

end Galley
