import Galley.Proofs.Work.Leads

/-!
# Work that is done by programs

Some work changes the tree by the programs that it starts and in no other way. Its notes then tell
all about its end: `Replays` follows them from the tree at the start to the one at the end. What
such work does is right if each start is (`Replays.of_mem`), and it keeps what every program that
it starts keeps (`Replays.keeps`).
-/

namespace Galley

open Work

/-! ### Events that are granted -/

namespace Work

variable {η : Type} {ok : List η → η → Prop}

/-- Whether each event is one that `ok` grants behind the events before it. -/
def Granted (ok : List η → η → Prop) : List η → List η → Prop
  | _, [] => True
  | past, e :: es => ok past e ∧ Granted ok (past ++ [e]) es

theorem granted_append {past xs ys : List η} :
    Granted ok past (xs ++ ys) ↔ Granted ok past xs ∧ Granted ok (past ++ xs) ys := by
  induction xs generalizing past with
  | nil => simp [Granted]
  | cons x xs ih =>
    rw [List.cons_append, Granted, Granted, ih, and_assoc, List.append_assoc,
      List.singleton_append]

/-- What is granted everywhere is granted of any events. -/
theorem granted_of_forall (h : ∀ past e, ok past e) (past es : List η) : Granted ok past es := by
  induction es generalizing past with
  | nil => trivial
  | cons e es ih => exact ⟨h past e, ih _⟩

end Work

/-- Whether a start keeps what `I` says of the tree, if it holds, however the output is read. -/
def Programs.Keeps (programs : Programs) (I : Tree → Prop) (past : List Note) : Note → Prop
  | .started s t _ =>
    I t → I (programs.text (startsOf past) s t).2 ∧ I (programs.bytes (startsOf past) s t).2
  | .logged _ => True

/-! ### Notes that tell all -/

/-- Whether notes lead from one tree to another by the programs that they tell of, each of which is
right in the tree that it finds. -/
inductive Replays (programs : Programs) (right : Start → Tree → Prop) :
    List Note → Tree → List Note → Tree → Prop
  | nil {past : List Note} {t : Tree} : Replays programs right past t [] t
  | logged {past notes : List Note} {t t' : Tree} {m : Message}
      (h : Replays programs right (past ++ [.logged m]) t notes t') :
      Replays programs right past t (.logged m :: notes) t'
  | text {past notes : List Note} {t t' : Tree} {s : Start} {status : Option Int} (hs : right s t)
      (h : Replays programs right (past ++ [.started s t status])
        (programs.text (startsOf past) s t).2 notes t') :
      Replays programs right past t (.started s t status :: notes) t'
  | bytes {past notes : List Note} {t t' : Tree} {s : Start} {status : Option Int} (hs : right s t)
      (h : Replays programs right (past ++ [.started s t status])
        (programs.bytes (startsOf past) s t).2 notes t') :
      Replays programs right past t (.started s t status :: notes) t'

namespace Replays

variable {programs : Programs} {right : Start → Tree → Prop} {past xs ys notes : List Note}
  {t u v : Tree}

private theorem append (h : Replays programs right past t xs u)
    (h' : Replays programs right (past ++ xs) u ys v) :
    Replays programs right past t (xs ++ ys) v := by
  induction h with
  | nil => simpa using h'
  | logged _ ih => exact .logged (ih (by simpa using h'))
  | text hs _ ih => exact .text hs (ih (by simpa using h'))
  | bytes hs _ ih => exact .bytes hs (ih (by simpa using h'))

/-- Every start is right in its tree. -/
theorem of_mem (h : Replays programs right past t notes u) {s : Start} {t' : Tree}
    {status : Option Int} (hn : .started s t' status ∈ notes) : right s t' := by
  induction h with
  | nil => cases hn
  | logged _ ih => exact ih (by simpa using hn)
  | text hs _ ih | bytes hs _ ih =>
    obtain heq | hn := List.mem_cons.mp hn
    · cases heq
      exact hs
    · exact ih hn

/-- What all programs keep is kept. -/
theorem keeps (h : Replays programs right past t notes u) {I : Tree → Prop} (ht : I t)
    (hg : Granted (programs.Keeps I) past notes) : I u := by
  induction h with
  | nil => exact ht
  | logged _ ih => exact ih ht hg.2
  | text _ _ ih => exact ih (hg.1 ht).1 hg.2
  | bytes _ _ ih => exact ih (hg.1 ht).2 hg.2

end Replays

/-! ### Rules -/

variable {programs : Programs} {right : Start → Tree → Prop} {ε α β : Type}

/-- Whether work changes the tree by programs alone, and only starts that are right. -/
def Replayed (programs : Programs) (right : Start → Tree → Prop) (w : Chore α) : Prop :=
  ∀ past t, Leads w past t fun _ notes t' => Replays programs right past t notes t'

theorem replayed_tree : Replayed programs right Chore.tree := fun _ _ => .nil

theorem replayed_log (level : Level) (text : String) :
    Replayed programs right (Chore.log level text) :=
  fun _ _ => .logged .nil

theorem replayed_logWeaving (level : Level) (text : String) :
    Replayed programs right (Chore.logWeaving level text) :=
  fun _ _ => .logged .nil

theorem replayed_stage_bind {w : ExceptT ε (Work Note Tree) α}
    {f : α → ExceptT ε (Work Note Tree) β} (hw : Replayed programs right w.run)
    (hf : ∀ x, Replayed programs right (f x).run) : Replayed programs right (w >>= f).run := by
  have hchains : Chains (Replays programs right) := fun _ _ _ _ _ _ => Replays.append
  exact fun past t => hchains.stage_bind ((hw past t).imp fun _ _ _ h => ⟨h, fun x _ => hf x _ _⟩)

theorem replayed_lift {w : Chore α} (hw : Replayed programs right w) :
    Replayed programs right (liftM w : ExceptT ε (Work Note Tree) α).run :=
  fun past t => leads_lift (hw past t)

theorem replayed_lift_bind {w : Chore α} {f : α → ExceptT ε (Work Note Tree) β}
    (hw : Replayed programs right w) (hf : ∀ x, Replayed programs right (f x).run) :
    Replayed programs right ((liftM w : ExceptT ε (Work Note Tree) α) >>= f).run :=
  replayed_stage_bind (replayed_lift hw) hf

theorem replayed_stage_pure (x : α) :
    Replayed programs right (pure x : ExceptT ε (Work Note Tree) α).run := fun _ _ => .nil

theorem replayed_throw (e : ε) :
    Replayed programs right (throw e : ExceptT ε (Work Note Tree) α).run := fun _ _ => .nil

end Galley
